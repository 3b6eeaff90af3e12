import LinkedSlots.Proofs.Totals
import Mathlib.Algebra.Order.Group.Multiset

namespace LinkedSlots

variable {α : Type}

namespace Call

def freed? : Call α → Option α
  | .free _ _ value => some value
  | _ => none

def asked? : Call α → Option α
  | .dup _ _ value => some value
  | _ => none

def isFree (call : Call α) : Bool := call.freed?.isSome

end Call

section Calls

variable (hook? : Option (FreeHook α))

@[simp] theorem freeCalls_filter (values : List α) :
    (freeCalls hook? values).filter Call.isFree = freeCalls hook? values := by
  cases hook? with
  | none => rfl
  | some hook =>
    apply List.filter_eq_self.mpr
    intro call member
    rcases List.mem_map.mp member with ⟨value, -, rfl⟩
    rfl

@[simp] theorem freeCalls_asked (values : List α) :
    (freeCalls hook? values).filterMap Call.asked? = [] := by
  cases hook? with
  | none => rfl
  | some hook =>
    apply List.filterMap_eq_nil_iff.mpr
    intro call member
    rcases List.mem_map.mp member with ⟨value, -, rfl⟩
    rfl

theorem freeCalls_freed (values : List α) (installed : values ≠ [] → hook?.isSome) :
    (freeCalls hook? values).filterMap Call.freed? = values := by
  cases hook? with
  | none =>
    cases values with
    | nil => rfl
    | cons value rest => cases installed (List.cons_ne_nil value rest)
  | some hook =>
    rw [freeCalls_some, List.filterMap_map]
    exact List.filterMap_some

section Copying

variable (hook : DupHook α) (asked values : List α)

/-- The calls of a dup hook, followed by those of a free hook, tell which values were copied. -/
theorem copyCalls_asked :
    (asked.map (Call.dup hook.id hook.label) ++ freeCalls hook? values).filterMap Call.asked? =
      asked := by
  rw [List.filterMap_append, freeCalls_asked, List.append_nil, List.filterMap_map]
  exact List.filterMap_some

theorem copyCalls_free :
    (asked.map (Call.dup hook.id hook.label) ++ freeCalls hook? values).filter Call.isFree =
      freeCalls hook? values := by
  rw [List.filter_append, freeCalls_filter]
  have none : (asked.map (Call.dup hook.id hook.label)).filter Call.isFree = [] := by
    apply List.filter_eq_nil_iff.mpr
    intro call member
    rcases List.mem_map.mp member with ⟨value, -, rfl⟩
    exact Bool.false_ne_true
  rw [none, List.nil_append]

end Copying

end Calls

def DupHook.copies (hook : DupHook α) (earlier : List α) : List α → List α
  | [] => []
  | value :: rest =>
    match hook.reply earlier value with
    | .ok (some copied) => copied :: copies hook (earlier ++ [value]) rest
    | _ => copies hook (earlier ++ [value]) rest

structure Shown (α : Type) where
  hooks : HookSet α
  entries : List (Handle × α)

def Shown.values (shown : Shown α) : List α := shown.entries.map Prod.snd

/-- What the lists show, and the calls that their hooks have had. -/
structure View (α : Type) where
  lists : Registry String (Shown α)
  ledger : Ledger α

namespace View

variable (v : View α)

def shown (name : String) : Shown α := (v.lists.find? name).getD ⟨{}, []⟩

def held (name : String) : List α := (v.shown name).values

def hooks (name : String) : HookSet α := (v.shown name).hooks

def stored (name : String) (handle : Handle) : Option α :=
  (locate handle (v.shown name).entries).map fun (_, value, _) => value

def live : Multiset α := v.lists.total fun shown => (shown.values : Multiset α)

end View

namespace Outcome

def handed : Outcome α → List α
  | .returned (.value value?) => value?.toList
  | .returned (.walkedValues answers) => answers.flatMap WalkAnswer.given
  | _ => []

def Calm : Outcome α → Prop
  | .panicked (.hook _) => False
  | .panicked .abort => False
  | _ => True

instance (outcome : Outcome α) : Decidable outcome.Calm :=
  match outcome with
  | .panicked (.hook _) => .isFalse id
  | .panicked .abort => .isFalse id
  | .panicked (.fault _) => .isTrue trivial
  | .returned _ => .isTrue trivial
  | .noList => .isTrue trivial

end Outcome

namespace ListOp

def changes? : ListOp α → Option (Changes α)
  | .updateFront change => some change
  | .updateBack change => some change
  | .update _ change => some change
  | .walkUpdating changes _ => some changes
  | _ => none

def inserted (outcome : Outcome α) : ListOp α → List α
  | .insert _ _ value =>
    match outcome with
    | .returned (.handle (some _)) => [value]
    | _ => []
  | _ => []

def returned (outcome : Outcome α) : ListOp α → List α
  | .popFront => outcome.handed
  | .popBack => outcome.handed
  | _ => []

def givenUp (held : List α) (stored : Handle → Option α) : ListOp α → List α
  | .delete handle => (stored handle).toList
  | .empty => held
  | _ => []

def Spares : ListOp α → Prop
  | .insert _ _ _ => True
  | .popFront => True
  | .popBack => True
  | .rotateTailToHead => True
  | .rotateHeadToTail => True
  | .search _ => True
  | .searchWithHook _ => True
  | _ => False

end ListOp

namespace Op

def changes? : Op α → Option (Changes α)
  | .on _ op => op.changes?
  | _ => none

def Spares : Op α → Prop
  | .on _ op => op.Spares
  | .join _ _ _ => True
  | _ => False

end Op

structure Moment (α : Type) where
  before : View α
  op : Op α
  report : Report α

namespace Moment

variable (m : Moment α)

def inserted : List α :=
  match m.op with
  | .on _ op => op.inserted m.report.outcome
  | _ => []

def copies (source : String) : List α :=
  match (m.before.hooks source).dup, m.report.outcome with
  | some hook, _ =>
    hook.copies (m.before.ledger.dups.earlier hook.id) (m.report.calls.filterMap Call.asked?)
  | none, .returned .done => m.before.held source
  | none, _ => []

def copied : List α :=
  match m.op with
  | .duplicate source _ _ => m.copies source
  | .duplicateWithHook source _ _ => m.copies source
  | _ => []

def returned : List α :=
  match m.op with
  | .on _ op => op.returned m.report.outcome
  | .walkTaking _ _ => m.report.outcome.handed
  | _ => []

def skipped : List α :=
  match m.op with
  | .walkTaking name steps => WalkStep.passedBy steps (m.before.held name)
  | _ => []

def freed : List α := m.report.calls.filterMap Call.freed?

def givenUp : String × List α :=
  match m.op, m.report.outcome with
  | .on name op, _ => (name, op.givenUp (m.before.held name) (m.before.stored name))
  | .create name _, _ => (name, m.before.held name)
  | .createWithRoom name _ _, .returned .done => (name, m.before.held name)
  | .duplicate _ name _, .returned .done => (name, m.before.held name)
  -- An unfinished copy has the hooks of the list that was being copied.
  | .duplicate source _ _, _ => (source, m.copies source)
  | .duplicateWithHook _ name _, .returned .done => (name, m.before.held name)
  | .duplicateWithHook source _ _, _ => (source, m.copies source)
  | .walkTaking name steps, _ => (name, WalkStep.leftBy steps (m.before.held name))
  | .release name, _ => (name, m.before.held name)
  | .drop name, _ => (name, m.before.held name)
  | _, _ => ("", [])

def disposals : List (Call α) :=
  freeCalls (m.before.hooks m.givenUp.1).free m.givenUp.2

/-- Lists that hold values have free hooks, no hook panics, and no value is overwritten. -/
structure Calm : Prop where
  guarded : ∀ entry ∈ m.before.lists.entries, entry.2.entries ≠ [] → entry.2.hooks.free.isSome
  quiet : m.report.outcome.Calm
  kept : ∀ changes ∈ m.op.changes?,
    m.report.outcome.handed.mapIdx changes.nth = m.report.outcome.handed

end Moment

/-- Every value that was stored is in a live list, or was returned, skipped or freed, once. -/
def Accounted (moments : List (Moment α)) (live : Multiset α) : Prop :=
  ((moments.flatMap Moment.inserted : List α) : Multiset α) + moments.flatMap Moment.copied =
    live + moments.flatMap Moment.returned + moments.flatMap Moment.skipped +
      moments.flatMap Moment.freed

def HookedList.shown (list : HookedList α) : Shown α :=
  ⟨list.hooks, list.chain.entries.toOption.getD []⟩

namespace Store

def view (s : Store α) : View α := ⟨s.lists.map HookedList.shown, s.ledger⟩

variable [BEq α] [Outlined α] [Stored α]

def moments (s : Store α) : List (Op α) → List (Moment α)
  | [] => []
  | op :: ops => ⟨s.view, op, (s.step op).1⟩ :: (s.step op).2.moments ops

end Store

end LinkedSlots
