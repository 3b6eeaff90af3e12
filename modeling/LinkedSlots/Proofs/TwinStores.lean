import LinkedSlots.Proofs.Lockstep
import LinkedSlots.Proofs.StoreSettling
import Mathlib.Data.Set.Defs

namespace LinkedSlots

variable {α : Type} {known : HookSet α → Prop}

namespace PlainList

variable {list other : PlainList α}

structure Twins (known : HookSet α → Prop) (list other : PlainList α) : Prop where
  roster : ∃ twins, Roster.Twins twins list.roster other.roster
  hooks : list.hooks = other.hooks
  inside : known list.hooks

theorem Twins.refl (list : PlainList α) (inside : known list.hooks) : list.Twins known list :=
  ⟨Roster.twins_of_values rfl rfl, rfl, inside⟩

theorem Twins.values (same : list.Twins known other) : list.roster.values = other.roster.values := by
  rcases same.roster with ⟨twins, roster⟩
  exact roster.values

theorem Twins.length (same : list.Twins known other) :
    list.roster.entries.length = other.roster.entries.length := by
  rcases same.roster with ⟨twins, roster⟩
  exact roster.length

theorem Twins.bench (same : list.Twins known other) {s t : Session α}
    (session : Session.Twins known s t) : PlainBench.Twinned known ⟨list, s⟩ ⟨other, t⟩ := by
  rcases same.roster with ⟨twins, roster⟩
  exact ⟨twins, roster, same.hooks, same.inside, session⟩

theorem session_of_bench {b c : PlainBench α} (same : PlainBench.Twinned known b c) :
    Session.Twins known b.session c.session := by
  rcases same with ⟨twins, same⟩
  exact same.session

theorem release_simulates (same : list.Twins known other) :
    Simulates Eq (Session.Twins known) list.release other.release := by
  intro s t session
  unfold release
  rcases (PlainBench.release_twinned _ _ (same.bench session)).cases with
    ⟨_, _, b, c, run, run', -, after⟩ | ⟨panic, b, c, run, run', after⟩
  · rw [run, run']
    exact ⟨rfl, session_of_bench after⟩
  · rw [run, run']
    exact ⟨rfl, session_of_bench after⟩

variable [Stored α]

end PlainList

def Outcome.Matches (same : Handle → Handle → Prop) : Outcome α → Outcome α → Prop
  | .returned answer, .returned other => answer.Matches same other
  | outcome, other => outcome = other

structure Report.Matches (same : Handle → Handle → Prop) (report other : Report α) : Prop where
  outcome : report.outcome.Matches same other.outcome
  calls : report.calls = other.calls
  log : report.log = other.log

namespace Op

def Whole (names : Set String) : Op α → Prop
  | .on _ _ => False
  | .create name policies => name ∈ names ∧ policies = {}
  | .createWithRoom name _ _ | .walkTaking name _ | .release name | .drop name => name ∈ names
  | .shareHooks name source | .join name source _ | .duplicate source name _
  | .duplicateWithHook source name _ => name ∈ names ∧ source ∈ names

inductive Matches (names : Set String) (same : String → Handle → Handle → Prop) : Op α → Op α → Prop
  | whole {op : Op α} (whole : op.Whole names) : Matches names same op op
  | on {name : String} {op other : ListOp α} (named : name ∈ names)
    (level : op.Matches (same name) other) : Matches names same (.on name op) (.on name other)

end Op

namespace PlainStore

def TwinLists (known : HookSet α → Prop) (names : Set String)
    (lists others : Registry String (PlainList α)) : Prop :=
  ∀ name ∈ names, Option.Rel (PlainList.Twins known) (lists.find? name) (others.find? name)

structure Twins (known : HookSet α → Prop) (names : Set String) (p p' : PlainStore α) : Prop where
  lists : TwinLists known names p.lists p'.lists
  hooks : ∀ hooks, known hooks → hooks.SameState p.ledger p'.ledger

def order (p : PlainStore α) (name : String) : List Handle :=
  ((p.lists.find? name).map (·.roster.handles)).getD []

variable {names : Set String} {same : Handle → Handle → Prop} {p p' : PlainStore α}
  {lists others : Registry String (PlainList α)} {list other : PlainList α} {name source : String}

theorem TwinLists.put (twins : TwinLists known names lists others) (name : String)
    (new : list.Twins known other) :
    TwinLists known names (lists.put name list) (others.put name other) := by
  intro key inside
  by_cases here : key = name
  · rw [here, lists.find?_put_self, others.find?_put_self]
    exact .some new
  · rw [lists.find?_put_of_ne _ here, others.find?_put_of_ne _ here]
    exact twins key inside

theorem TwinLists.erase (twins : TwinLists known names lists others) (name : String) :
    TwinLists known names (lists.erase name) (others.erase name) := by
  intro key inside
  by_cases here : key = name
  · rw [here, lists.find?_erase_self, others.find?_erase_self]
    exact .none
  · rw [lists.find?_erase_of_ne here, others.find?_erase_of_ne here]
    exact twins key inside

theorem TwinLists.cases (twins : TwinLists known names lists others) (named : name ∈ names) :
    (lists.find? name = none ∧ others.find? name = none) ∨
      ∃ list other, lists.find? name = some list ∧ others.find? name = some other ∧
        list.Twins known other := by
  have related := twins name named
  cases found : lists.find? name with
  | none =>
    cases found' : others.find? name with
    | none => exact .inl ⟨rfl, rfl⟩
    | some other =>
      rw [found, found'] at related
      cases related
  | some list =>
    cases found' : others.find? name with
    | none =>
      rw [found, found'] at related
      cases related
    | some other =>
      rw [found, found'] at related
      cases related with
      | some twins => exact .inr ⟨list, other, rfl, rfl, twins⟩

theorem Twins.session (twins : p.Twins known names p') : Session.Twins known p.session p'.session :=
  ⟨twins.hooks, rfl, rfl⟩

def Proper (p : PlainStore α) : Prop :=
  ∀ name list, p.lists.find? name = some list → list.roster.Proper

variable [BEq α] [Outlined α] [Stored α]

end PlainStore

end LinkedSlots
