import LinkedSlots.Proofs.PlainStore
import Mathlib.Algebra.BigOperators.Group.List.Basic
import Mathlib.Tactic.Abel

namespace LinkedSlots

namespace Registry

variable {κ β γ : Type}

def Sorted [LT κ] (r : Registry κ β) : Prop := r.entries.Pairwise fun entry other => entry.1 < other.1

def total [AddCommMonoid γ] (amount : β → γ) (r : Registry κ β) : γ :=
  (r.entries.map fun entry => amount entry.2).sum

def amountAt [AddCommMonoid γ] [DecidableEq κ] (amount : β → γ) (r : Registry κ β) (key : κ) : γ :=
  match r.find? key with
  | none => 0
  | some entry => amount entry

def map (shown : β → γ) (r : Registry κ β) : Registry κ γ :=
  ⟨r.entries.map fun entry => (entry.1, shown entry.2)⟩

theorem total_map {δ : Type} [AddCommMonoid δ] (shown : β → γ) (amount : γ → δ) (r : Registry κ β) :
    (r.map shown).total amount = r.total fun entry => amount (shown entry) := by
  unfold total map
  rw [List.map_map]
  rfl

section Keys

variable [DecidableEq κ]

theorem find?_map (shown : β → γ) (r : Registry κ β) (key : κ) :
    (r.map shown).find? key = (r.find? key).map shown := by
  rcases r with ⟨entries⟩
  unfold find? map
  dsimp only
  induction entries with
  | nil => rfl
  | cons first rest ih =>
    rcases first with ⟨other, kept⟩
    rw [List.map_cons, lookup, lookup]
    by_cases same : key = other
    · rw [if_pos same, if_pos same]
      rfl
    · rw [if_neg same, if_neg same]
      exact ih

theorem mem_of_find? {r : Registry κ β} {key : κ} {entry : β}
    (found : r.find? key = some entry) : (key, entry) ∈ r.entries := by
  rcases r with ⟨entries⟩
  unfold find? at found
  dsimp only at found ⊢
  induction entries with
  | nil => cases found
  | cons first rest ih =>
    rcases first with ⟨other, kept⟩
    by_cases same : key = other
    · simp only [lookup, same, if_true, Option.some.injEq] at found
      rw [same, found]
      exact List.mem_cons_self
    · simp only [lookup, same, if_false] at found
      exact List.mem_cons_of_mem _ (ih found)

theorem mem_eraseEntry {key : κ} {entries : List (κ × β)} {entry : κ × β}
    (member : entry ∈ eraseEntry key entries) : entry ∈ entries := by
  induction entries with
  | nil => cases member
  | cons first rest ih =>
    rcases first with ⟨other, kept⟩
    by_cases same : key = other
    · simp only [eraseEntry, same, if_true] at member ih
      exact List.mem_cons_of_mem _ (ih member)
    · simp only [eraseEntry, same, if_false] at member
      rcases List.mem_cons.mp member with rfl | member
      · exact List.mem_cons_self
      · exact List.mem_cons_of_mem _ (ih member)

variable [LT κ]

theorem Sorted.erase {r : Registry κ β} (sorted : r.Sorted) (key : κ) : (r.erase key).Sorted := by
  rcases r with ⟨entries⟩
  unfold Sorted at sorted ⊢
  unfold Registry.erase
  dsimp only at sorted ⊢
  induction entries with
  | nil => exact .nil
  | cons first rest ih =>
    rcases first with ⟨other, kept⟩
    rcases List.pairwise_cons.mp sorted with ⟨below, later⟩
    by_cases same : key = other
    · simp only [eraseEntry, same, if_true] at ih ⊢
      exact ih later
    · simp only [eraseEntry, same, if_false]
      apply List.pairwise_cons.mpr
      exact ⟨fun entry member => below entry (mem_eraseEntry member), ih later⟩

variable [DecidableLT κ]

theorem mem_putEntry {key : κ} {new : β} {entries : List (κ × β)} {entry : κ × β}
    (member : entry ∈ putEntry key new entries) : entry = (key, new) ∨ entry ∈ entries := by
  induction entries with
  | nil => exact .inl (List.mem_singleton.mp member)
  | cons first rest ih =>
    rcases first with ⟨other, kept⟩
    by_cases same : key = other
    · simp only [putEntry, same, if_true] at member
      rcases List.mem_cons.mp member with rfl | member
      · exact .inl (by rw [same])
      · exact .inr (List.mem_cons_of_mem _ member)
    · by_cases before : key < other
      · simp only [putEntry, same, before, if_true, if_false] at member
        exact List.mem_cons.mp member
      · simp only [putEntry, same, before, if_false] at member
        rcases List.mem_cons.mp member with rfl | member
        · exact .inr List.mem_cons_self
        · exact (ih member).imp id (List.mem_cons_of_mem _)

variable [LE κ] [Std.IsLinearOrder κ] [Std.LawfulOrderLT κ]

theorem Sorted.put {r : Registry κ β} (sorted : r.Sorted) (key : κ) (new : β) :
    (r.put key new).Sorted := by
  rcases r with ⟨entries⟩
  unfold Sorted at sorted ⊢
  unfold Registry.put
  dsimp only at sorted ⊢
  induction entries with
  | nil => exact List.pairwise_singleton _ _
  | cons first rest ih =>
    rcases first with ⟨other, kept⟩
    rcases List.pairwise_cons.mp sorted with ⟨below, later⟩
    by_cases same : key = other
    · simp only [putEntry, same, if_true]
      exact List.pairwise_cons.mpr ⟨below, later⟩
    · by_cases before : key < other
      · simp only [putEntry, same, before, if_true, if_false]
        refine List.pairwise_cons.mpr ⟨?_, sorted⟩
        intro entry member
        rcases List.mem_cons.mp member with rfl | member
        · exact before
        · exact Std.lt_trans before (below entry member)
      · simp only [putEntry, same, before, if_false]
        refine List.pairwise_cons.mpr ⟨?_, ih later⟩
        intro entry member
        have behind : other < key :=
          Std.lt_of_le_of_ne (Std.not_lt.mp before) (Ne.symm same)
        rcases mem_putEntry member with rfl | member
        · exact behind
        · exact below entry member

end Keys

section Balance

variable [DecidableEq κ] [LT κ] [LE κ] [Std.LawfulOrderLT κ]

theorem lookup_behind {key : κ} {entries : List (κ × β)} (below : ∀ entry ∈ entries, key < entry.1) :
    lookup key entries = none := by
  induction entries with
  | nil => rfl
  | cons first rest ih =>
    rcases first with ⟨other, kept⟩
    have less := below (other, kept) List.mem_cons_self
    have ne : key ≠ other := fun same => Std.lt_irrefl (same ▸ less)
    rw [lookup, if_neg ne]
    exact ih fun entry member => below entry (List.mem_cons_of_mem _ member)

theorem Sorted.put_same [Std.IsLinearOrder κ] [DecidableLT κ] {r : Registry κ β} (sorted : r.Sorted)
    {key : κ} {entry : β} (found : r.find? key = some entry) : r.put key entry = r := by
  rcases r with ⟨entries⟩
  unfold Sorted at sorted
  unfold find? at found
  unfold Registry.put
  dsimp only at sorted found ⊢
  congr 1
  induction entries with
  | nil => cases found
  | cons first rest ih =>
    rcases first with ⟨other, kept⟩
    rcases List.pairwise_cons.mp sorted with ⟨below, later⟩
    by_cases same : key = other
    · simp only [lookup, same, if_true, Option.some.injEq] at found
      simp only [putEntry, same, if_true, found]
    · simp only [lookup, same, if_false] at found
      by_cases before : key < other
      · have absent : lookup key rest = none :=
          lookup_behind fun entry member => Std.lt_trans before (below entry member)
        rw [absent] at found
        cases found
      · simp only [putEntry, same, before, if_false, ih later found]

variable [AddCommMonoid γ] (amount : β → γ) {r : Registry κ β}

/-- The new entry counts in place of the one that had the key. -/
theorem total_put [Std.IsLinearOrder κ] [DecidableLT κ] (sorted : r.Sorted) (key : κ) (new : β) :
    (r.put key new).total amount + r.amountAt amount key = r.total amount + amount new := by
  rcases r with ⟨entries⟩
  unfold Sorted at sorted
  unfold Registry.put total amountAt find?
  dsimp only at sorted ⊢
  induction entries with
  | nil => simp [putEntry, lookup]
  | cons first rest ih =>
    rcases first with ⟨other, kept⟩
    rcases List.pairwise_cons.mp sorted with ⟨below, later⟩
    by_cases same : key = other
    · simp only [putEntry, lookup, same, if_true, List.map_cons, List.sum_cons]
      abel
    · by_cases before : key < other
      -- A key that goes in front of an entry is nowhere behind it, so nothing is replaced.
      · have absent : lookup key rest = none :=
          lookup_behind fun entry member => Std.lt_trans before (below entry member)
        simp only [putEntry, lookup, same, before, absent, if_true, if_false, List.map_cons,
          List.sum_cons]
        abel
      · simp only [putEntry, lookup, same, before, if_false, List.map_cons, List.sum_cons]
        rw [add_assoc, ih later, add_assoc]

theorem total_erase (sorted : r.Sorted) (key : κ) :
    (r.erase key).total amount + r.amountAt amount key = r.total amount := by
  rcases r with ⟨entries⟩
  unfold Sorted at sorted
  unfold Registry.erase total amountAt find?
  dsimp only at sorted ⊢
  induction entries with
  | nil => simp [eraseEntry, lookup]
  | cons first rest ih =>
    rcases first with ⟨other, kept⟩
    rcases List.pairwise_cons.mp sorted with ⟨below, later⟩
    by_cases same : key = other
    · subst same
      have behind := ih later
      simp only [lookup_behind below, add_zero] at behind
      simp only [eraseEntry, lookup, if_true, List.map_cons, List.sum_cons]
      rw [behind, add_comm]
    · simp only [eraseEntry, lookup, same, if_false, List.map_cons, List.sum_cons]
      rw [add_assoc, ih later]

end Balance

end Registry

namespace PlainStore

variable {α : Type} {p : PlainStore α} {lists : Registry String (PlainList α)} {name source : String}

theorem conclude_lists (ended : EStateM.Result Panic (Session α) (Answer α)) :
    (conclude lists ended).2.lists = lists := by
  cases ended <;> rfl

theorem replace_lists (list : PlainList α) (session : Session α) :
    (p.replace name list session).2.lists = p.lists.put name list :=
  conclude_lists _

theorem keep_sorted (sorted : p.lists.Sorted)
    (made : EStateM.Result Panic (Session α) (Except ListError (PlainList α))) :
    (p.keep name made).2.lists.Sorted := by
  cases made with
  | ok made? session =>
    cases made? with
    | ok list =>
      show (p.replace name list session).2.lists.Sorted
      rw [replace_lists]
      exact sorted.put name list
    | error e => exact sorted
  | error panic session => exact sorted

theorem retire_sorted (sorted : p.lists.Sorted)
    (act : PlainList α → Act (Session α) (Answer α)) : (p.retire name act).2.lists.Sorted := by
  unfold retire
  cases p.lists.find? name with
  | none => exact sorted
  | some list =>
    dsimp only
    rw [conclude_lists]
    exact sorted.erase name

theorem duplicate_sorted (sorted : p.lists.Sorted)
    (copy : PlainList α → Act (Session α) (Except ListError (PlainList α))) :
    (p.duplicate source name copy).2.lists.Sorted := by
  unfold duplicate
  cases p.lists.find? source with
  | none => exact sorted
  | some list => exact keep_sorted sorted _

theorem pair_sorted (sorted : p.lists.Sorted)
    {act : PlainList α → PlainList α → Report α × PlainStore α}
    (each : ∀ list other, (act list other).2.lists.Sorted) :
    (p.pair name source act).2.lists.Sorted := by
  unfold pair
  by_cases same : name = source
  · rw [if_pos same]
    exact sorted
  · rw [if_neg same]
    cases p.lists.find? name with
    | none => exact sorted
    | some list =>
      cases p.lists.find? source with
      | none => exact sorted
      | some other => exact each list other

variable [BEq α] [Outlined α] [Stored α]

theorem step_sorted (sorted : p.lists.Sorted) (op : Op α) : (p.step op).2.lists.Sorted := by
  cases op with
  | create name policies =>
    show (p.replace name _ _).2.lists.Sorted
    rw [replace_lists]
    exact sorted.put name _
  | createWithRoom name memory count => exact keep_sorted sorted _
  | on name op =>
    show (p.work name _).2.lists.Sorted
    unfold work
    cases p.lists.find? name with
    | none => exact sorted
    | some list =>
      dsimp only
      cases PlainBench.perform op ⟨list, p.session⟩ with
      | ok answer b => exact sorted.put name b.list
      | error panic b => exact sorted.put name b.list
  | shareHooks name source =>
    apply pair_sorted sorted
    intro list other
    exact sorted.put name _
  | join name source memory =>
    apply pair_sorted sorted
    intro list other
    cases PlainBench.join memory (⟨list, p.session⟩, other) with
    | ok joined after => exact (sorted.put name _).put source _
    | error panic after => exact (sorted.put name _).put source _
  | duplicate source name memory => exact duplicate_sorted sorted _
  | duplicateWithHook source name memory => exact duplicate_sorted sorted _
  | walkTaking name steps => exact retire_sorted sorted _
  | release name => exact retire_sorted sorted _
  | drop name => exact retire_sorted sorted _

theorem run_sorted (sorted : p.lists.Sorted) (ops : List (Op α)) : (p.run ops).2.lists.Sorted := by
  induction ops generalizing p with
  | nil => exact sorted
  | cons op ops ih => exact ih (step_sorted sorted op)

/-- An operation that only looks at its list changes nothing at all. -/
theorem step_looks (sorted : p.lists.Sorted) {list : PlainList α}
    (found : p.lists.find? name = some list) {op : ListOp α} {answer : Answer α}
    (looks : PlainBench.perform op ⟨list, p.session⟩ = .ok answer ⟨list, p.session⟩) :
    p.step (.on name op) = (⟨.returned answer, [], []⟩, p) := by
  rw [step_on found, looks]
  unfold conclude
  dsimp only
  rw [sorted.put_same found]
  rfl

end PlainStore

end LinkedSlots
