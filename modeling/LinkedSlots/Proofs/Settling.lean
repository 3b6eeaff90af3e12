import LinkedSlots.Proofs.Keeping

namespace LinkedSlots

variable {α : Type}

def Outcome.of {σ : Type} : EStateM.Result Panic σ (Answer α) → Outcome α
  | .ok answer _ => .returned answer
  | .error panic _ => .panicked panic

namespace Roster

variable {q : Roster α} {handle : Handle} {front back : List (Handle × α)} {value : α}

theorem entries_gap {place : Place} (gap : q.gap place = .ok (front, back)) :
    q.entries = front ++ back := by
  cases place with
  | head =>
    cases gap
    rfl
  | tail =>
    cases gap
    exact (List.append_nil _).symm
  | after handle =>
    cases found : locate handle q.entries with
    | none =>
      simp only [Roster.gap, found] at gap
      cases gap
    | some split =>
      rcases split with ⟨before, value, behind⟩
      simp only [Roster.gap, found] at gap
      cases gap
      rw [locate_eq_some found]
      simp
  | before handle =>
    cases found : locate handle q.entries with
    | none =>
      simp only [Roster.gap, found] at gap
      cases gap
    | some split =>
      rcases split with ⟨before, value, behind⟩
      simp only [Roster.gap, found] at gap
      cases gap
      exact locate_eq_some found

theorem values_putBetween {place : Place} (gap : q.gap place = .ok (front, back)) (grown : Roster α)
    (value : α) : (q.values ++ [value]).Perm (grown.putBetween front back value).values := by
  unfold values putBetween
  rw [entries_gap gap]
  simp only [List.map_append, List.map_cons]
  exact (List.perm_append_singleton _ _).trans List.perm_middle.symm

theorem values_takeOut (entries : q.entries = front ++ (handle, value) :: back) :
    q.values.Perm ((q.takeOut front handle back).values ++ [value]) := by
  unfold values takeOut
  rw [entries]
  simp only [List.map_append, List.map_cons]
  exact List.perm_middle.trans (List.perm_append_singleton _ _).symm

variable {change : α → α}

theorem updateFront_fixed
    (fixed : (q.updateFront change).1.toList.map change = (q.updateFront change).1.toList) :
    (q.updateFront change).2.values = q.values := by
  cases entries : q.entries with
  | nil => simp only [updateFront, entries]
  | cons entry back =>
    rcases entry with ⟨handle, value⟩
    simp only [updateFront, entries] at fixed ⊢
    have same : change value = value := by simpa using fixed
    simp [values, withEntries, entries, same]

theorem updateBack_fixed
    (fixed : (q.updateBack change).1.toList.map change = (q.updateBack change).1.toList) :
    (q.updateBack change).2.values = q.values := by
  rcases List.eq_nil_or_concat' q.entries with entries | ⟨front, ⟨handle, value⟩, entries⟩
  · simp only [updateBack, entries, List.getLast?_nil]
  · simp only [updateBack, entries, List.getLast?_concat, List.dropLast_concat] at fixed ⊢
    have same : change value = value := by simpa using fixed
    simp [values, withEntries, entries, same]

theorem update_fixed
    (fixed : (q.update handle change).1.toList.map change = (q.update handle change).1.toList) :
    (q.update handle change).2.values = q.values := by
  cases place : locate handle q.entries with
  | none => simp only [update, place]
  | some split =>
    rcases split with ⟨front, value, back⟩
    simp only [update, place] at fixed ⊢
    have same : change value = value := by simpa using fixed
    simp [values, withEntries, locate_eq_some place, same]

/-- The handles of the entries handed out are those of entries, each of which is there once. -/
theorem Proper.walkUpdating_fixed (proper : q.Proper) {changes : Changes α} {steps : List WalkStep}
    (fixed : ((WalkStep.answers steps q.values).flatMap WalkAnswer.given).mapIdx changes.nth =
      (WalkStep.answers steps q.values).flatMap WalkAnswer.given) :
    q.entries.map (touch changes ((WalkStep.answers steps q.entries).flatMap WalkAnswer.given)) =
      q.entries := by
  unfold values at fixed
  rw [WalkStep.given_map] at fixed
  exact touch_fixed proper.handles_nodup (fun _ given => WalkStep.given_among given) fixed

end Roster

namespace ListOp

variable {op : ListOp α} {list : PlainList α} {s : Session α}
  {run : EStateM.Result Panic (PlainBench α) (Answer α)}

structure Settles (op : ListOp α) (list : PlainList α)
    (run : EStateM.Result Panic (PlainBench α) (Answer α)) : Prop where
  balance : (list.roster.values ++ op.inserted (.of run)).Perm
    ((ending run).list.roster.values ++ op.returned (.of run) ++
      op.givenUp list.roster.values list.roster.get?)
  calls : (ending run).session.frees =
    freeCalls list.hooks.free (op.givenUp list.roster.values list.roster.get?)

def Idle : ListOp α → Prop
  | .insert _ _ _ => False
  | .delete _ => False
  | .popFront => False
  | .popBack => False
  | .empty => False
  | _ => True

theorem Idle.inserted (idle : op.Idle) (outcome : Outcome α) : op.inserted outcome = [] := by
  cases op <;> first | exact idle.elim | rfl

theorem Idle.returned (idle : op.Idle) (outcome : Outcome α) : op.returned outcome = [] := by
  cases op <;> first | exact idle.elim | rfl

theorem Idle.givenUp (idle : op.Idle) (held : List α) (stored : Handle → Option α) :
    op.givenUp held stored = [] := by
  cases op <;> first | exact idle.elim | rfl

theorem Settles.unmoved (fresh : s.calls = []) (gained : op.inserted (.of run) = [])
    (returned : op.returned (.of run) = [])
    (givenUp : op.givenUp list.roster.values list.roster.get? = [])
    (kept : (ending run).goods = PlainBench.goods ⟨list, s⟩) : op.Settles list run := by
  rcases Prod.mk.inj kept with ⟨values, frees⟩
  constructor
  · rw [gained, returned, givenUp]
    simpa only [List.append_nil] using (Multiset.coe_eq_coe.mp values).symm
  · rw [givenUp, freeCalls_nil, frees]
    exact Session.frees_fresh fresh

theorem Idle.settles (idle : op.Idle) (fresh : s.calls = [])
    (kept : (ending run).goods = PlainBench.goods ⟨list, s⟩) : op.Settles list run :=
  .unmoved fresh (idle.inserted _) (idle.returned _) (idle.givenUp _ _) kept

variable [BEq α] [Outlined α] [Stored α]

open PlainBench

/-- An idle operation that changes no value leaves all values where they are. -/
theorem Idle.keeps (idle : op.Idle) (unchanged : op.changes? = none) : Keeps goods (perform op) := by
  cases op with
  | length => exact Keeps.get.bind fun _ => .pure _
  | describeHooks => exact Keeps.get.bind fun _ => .pure _
  | setHooks policies => exact (install_keeps _).bind fun _ => .pure _
  | setDup policy => exact (install_keeps _).bind fun _ => .pure _
  | setFree policy => exact (install_keeps _).bind fun _ => .pure _
  | setMatching policy => exact (install_keeps _).bind fun _ => .pure _
  | reserve memory count => exact (reserve_keeps memory count).bind fun _ => .pure _
  | front => exact Keeps.get.bind fun _ => .pure _
  | back => exact Keeps.get.bind fun _ => .pure _
  | head => exact Keeps.get.bind fun _ => .pure _
  | tail => exact Keeps.get.bind fun _ => .pure _
  | get handle => exact Keeps.get.bind fun _ => .pure _
  | next handle => exact Keeps.get.bind fun _ => .pure _
  | prev handle => exact Keeps.get.bind fun _ => .pure _
  | index position => exact Keeps.get.bind fun _ => .pure _
  | rotateTailToHead => exact (edit_keeps Roster.rotateTailToHead_keeps).bind fun _ => .pure _
  | rotateHeadToTail => exact (edit_keeps Roster.rotateHeadToTail_keeps).bind fun _ => .pure _
  | search key => exact (search_keeps key).bind fun _ => .pure _
  | searchWithHook key => exact (searchWithHook_keeps key).bind fun _ => .pure _
  | walkHandles steps => exact Keeps.get.bind fun _ => .pure _
  | walkValues steps => exact Keeps.get.bind fun _ => .pure _
  | render layout => exact Keeps.get.bind fun _ => .pure _
  | insert memory place value => exact idle.elim
  | delete handle => exact idle.elim
  | popFront => exact idle.elim
  | popBack => exact idle.elim
  | empty => exact idle.elim
  | updateFront change => cases unchanged
  | updateBack change => cases unchanged
  | update handle change => cases unchanged
  | walkUpdating changes steps => cases unchanged

theorem Idle.settles_of_values (idle : op.Idle) (fresh : s.calls = []) {answer : Answer α}
    {q : Roster α} (run : perform op ⟨list, s⟩ = .ok answer ⟨⟨q, list.hooks⟩, s⟩)
    (same : q.values = list.roster.values) : op.Settles list (perform op ⟨list, s⟩) := by
  apply idle.settles fresh
  rw [run]
  show ((q.values : Multiset α), s.frees) = _
  rw [same]
  rfl

theorem insert_settles (fresh : s.calls = []) (memory : Memory) (place : Place) (value : α) :
    (insert memory place value).Settles list (perform (.insert memory place value) ⟨list, s⟩) := by
  rw [PlainBench.perform, bind_apply, insert_apply]
  cases gap : list.roster.gap place with
  | error cause => exact .unmoved fresh rfl rfl rfl rfl
  | ok between =>
    rcases between with ⟨front, back⟩
    cases room : list.roster.reserveSlot memory with
    | error shortage => exact .unmoved fresh rfl rfl rfl rfl
    | ok grown =>
      constructor
      · have perm := Roster.values_putBetween gap grown value
        simpa [ending, Outcome.of, Answer.ofInsert, inserted, returned, givenUp] using perm
      · show s.frees = _
        rw [Session.frees_fresh fresh]
        exact (freeCalls_nil _).symm

/-- Where a free hook is installed, a value that is deleted goes to it. -/
theorem delete_settles (fresh : s.calls = []) (handle : Handle)
    (guarded : list.roster.entries ≠ [] → list.hooks.free.isSome)
    (quiet : (Outcome.of (perform (.delete handle) ⟨list, s⟩)).Calm) :
    (delete handle).Settles list (perform (.delete handle) ⟨list, s⟩) := by
  rw [PlainBench.perform, bind_apply, delete_apply] at quiet ⊢
  cases place : locate handle list.roster.entries with
  | none =>
    have absent : (list.roster.get? handle).toList = [] := by
      rw [Roster.get?, place]
      rfl
    exact .unmoved fresh rfl rfl absent rfl
  | some split =>
    rcases split with ⟨front, value, back⟩
    have entries := locate_eq_some place
    have given : (delete handle).givenUp list.roster.values list.roster.get? = [value] := by
      show (list.roster.get? handle).toList = [value]
      rw [Roster.get?, place]
      rfl
    have installed := guarded (by simp [entries])
    rcases Option.isSome_iff_exists.mp installed with ⟨hook, free⟩
    simp only [place, free] at quiet ⊢
    rcases Session.free_cases (some hook) value s with ⟨t, called, freed⟩ | ⟨text, t, called, -, freed⟩
    · rw [called]
      constructor
      · rw [given]
        simpa [ending, returned, inserted] using Roster.values_takeOut entries
      · rw [given, free]
        show t.frees = _
        rw [freed.frees, Session.frees_fresh fresh, List.nil_append]
    · rw [called] at quiet
      exact quiet.elim

theorem popFront_settles (fresh : s.calls = []) :
    popFront.Settles list (perform .popFront ⟨list, s⟩) := by
  rw [PlainBench.perform, bind_apply, edit_apply]
  unfold Roster.popFront
  cases entries : list.roster.entries with
  | nil => exact .unmoved fresh rfl rfl rfl rfl
  | cons entry back =>
    rcases entry with ⟨handle, value⟩
    constructor
    · have split : list.roster.entries = [] ++ (handle, value) :: back := entries
      simpa [ending, Outcome.of, Outcome.handed, inserted, returned, givenUp] using
        Roster.values_takeOut split
    · show s.frees = _
      rw [Session.frees_fresh fresh]
      exact (freeCalls_nil _).symm

theorem popBack_settles (fresh : s.calls = []) :
    popBack.Settles list (perform .popBack ⟨list, s⟩) := by
  rw [PlainBench.perform, bind_apply, edit_apply]
  unfold Roster.popBack
  rcases List.eq_nil_or_concat' list.roster.entries with entries | ⟨front, ⟨handle, value⟩, entries⟩
  · simp only [entries, List.getLast?_nil]
    exact .unmoved fresh rfl rfl rfl rfl
  · simp only [entries, List.getLast?_concat, List.dropLast_concat]
    constructor
    · simpa [ending, Outcome.of, Outcome.handed, inserted, returned, givenUp] using
        Roster.values_takeOut entries
    · show s.frees = _
      rw [Session.frees_fresh fresh]
      exact (freeCalls_nil _).symm

theorem empty_settles (fresh : s.calls = [])
    (quiet : (Outcome.of (perform .empty ⟨list, s⟩)).Calm) :
    empty.Settles list (perform .empty ⟨list, s⟩) := by
  rw [perform, bind_apply, empty_apply] at quiet ⊢
  rcases Session.freeAll_cases list.hooks.free list.roster.values
    (s.noted (.emptying list.roster.entries.length)) with
    ⟨t, called, freed⟩ | ⟨text, t, done, value, rest, called, -⟩
  · rw [called]
    constructor
    · show (list.roster.values ++ []).Perm ([] ++ [] ++ list.roster.values)
      rw [List.append_nil]
      exact .refl _
    · show t.frees = _
      rw [freed.frees]
      show s.frees ++ _ = _
      rw [Session.frees_fresh fresh]
      rfl
  · rw [called] at quiet
    exact quiet.elim

/-- Every operation on one list settles, as long as no hook panics and no value is overwritten. -/
theorem settles (op : ListOp α) (fresh : s.calls = []) (proper : list.roster.Proper)
    (guarded : list.roster.entries ≠ [] → list.hooks.free.isSome)
    (quiet : (Outcome.of (perform op ⟨list, s⟩)).Calm)
    (kept : ∀ changes ∈ op.changes?, (Outcome.of (perform op ⟨list, s⟩)).handed.mapIdx changes.nth =
      (Outcome.of (perform op ⟨list, s⟩)).handed) :
    op.Settles list (perform op ⟨list, s⟩) := by
  cases op with
  | insert memory place value => exact insert_settles fresh memory place value
  | delete handle => exact delete_settles fresh handle guarded quiet
  | popFront => exact popFront_settles fresh
  | popBack => exact popBack_settles fresh
  | empty => exact empty_settles fresh quiet
  | updateFront change =>
    have same := Roster.updateFront_fixed (Changes.map_of_mapIdx (kept change rfl))
    exact Idle.settles_of_values trivial fresh rfl same
  | updateBack change =>
    have same := Roster.updateBack_fixed (Changes.map_of_mapIdx (kept change rfl))
    exact Idle.settles_of_values trivial fresh rfl same
  | update handle change =>
    have same := Roster.update_fixed (Changes.map_of_mapIdx (kept change rfl))
    exact Idle.settles_of_values trivial fresh rfl same
  | walkUpdating changes steps =>
    have same := congrArg (List.map Prod.snd) (proper.walkUpdating_fixed (kept changes rfl))
    exact Idle.settles_of_values trivial fresh rfl same
  -- All others leave the values alone.
  | _ => exact Idle.settles trivial fresh (Idle.keeps (by trivial) (by rfl) ⟨list, s⟩)

end ListOp

end LinkedSlots
