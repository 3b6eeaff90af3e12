import LinkedSlots.Proofs.StoreSettling

namespace LinkedSlots

variable {α : Type}

/-- A walk over nothing passes over nothing and leaves nothing. -/
theorem WalkStep.walk_nil (steps : List WalkStep) :
    passedBy steps ([] : List α) = [] ∧ leftBy steps ([] : List α) = [] := by
  have balance := balance_all steps ([] : List α)
  rw [Multiset.coe_add, Multiset.coe_add] at balance
  have nothing := List.perm_nil.mp (Multiset.coe_eq_coe.mp balance)
  rcases List.append_eq_nil_iff.mp nothing with ⟨first, left⟩
  exact ⟨(List.append_eq_nil_iff.mp first).2, left⟩

/-- Releasing a list frees its values, or panics. -/
theorem PlainList.release_ends (list : PlainList α) (s : Session α) :
    (∃ t, list.release s = .ok () t ∧
        t.calls = s.calls ++ freeCalls list.hooks.free list.roster.values) ∨
      ∃ panic t, list.release s = .error panic t ∧ ¬ (Outcome.panicked panic : Outcome α).Calm := by
  rw [release_apply]
  rcases Session.freeAll_cases list.hooks.free list.roster.values
    (s.noted (.releasing list.roster.entries.length)) with
    ⟨t, called, freed⟩ | ⟨text, t, _, _, _, called, -⟩
  · rw [called]
    exact .inl ⟨t, rfl, freed.calls⟩
  · rw [called]
    right
    dsimp only
    cases Session.freeAll list.hooks.free _ t with
    | ok done u => exact ⟨_, _, rfl, id⟩
    | error panic u => exact ⟨_, _, rfl, id⟩

namespace PlainStore

variable {p : PlainStore α} {name : String} {list : PlainList α}

theorem retire_absent {act : PlainList α → Act (Session α) (Answer α)}
    (absent : p.lists.find? name = none) : p.retire name act = p.refuse := by
  unfold retire
  rw [absent]

theorem retire_found {act : PlainList α → Act (Session α) (Answer α)}
    (found : p.lists.find? name = some list) :
    p.retire name act = conclude (p.lists.erase name) (act list p.session) := by
  unfold retire
  rw [found]

variable [BEq α] [Outlined α] [Stored α]

/-- A list that ends has handed out, passed over or freed each of its values. -/
theorem retired_settled {op : Op α} {act : Act (Session α) (Answer α)} (answer : Answer α)
    (left : List α) (sorted : p.lists.Sorted) (found : p.lists.find? name = some list)
    (calm : (p.moment op).Calm)
    (step : p.step op = conclude (p.lists.erase name) (act p.session))
    (ends : (∃ t, act p.session = .ok answer t ∧ t.calls = freeCalls list.hooks.free left) ∨
      ∃ panic t, act p.session = .error panic t ∧ ¬ (Outcome.panicked panic : Outcome α).Calm)
    (account : ∀ calls log, let m : Moment α := ⟨p.view, op, ⟨.returned answer, calls, log⟩⟩
      m.inserted = [] ∧ m.copied = [] ∧ m.givenUp = (name, left) ∧
        (list.roster.values : Multiset α) = m.returned + m.skipped + left) : p.Settled op := by
  have quiet := quiet_of calm step
  rcases ends with ⟨t, run, calls⟩ | ⟨panic, t, run, loud⟩
  · replace step : p.step op =
        (⟨.returned answer, t.calls, t.log⟩, ⟨p.lists.erase name, t.ledger⟩) := by
      rw [step, run]
      rfl
    rcases account t.calls t.log with ⟨inserted, copied, givenUp, moved⟩
    have erased := erase_live sorted name
    rw [held_found found, moved] at erased
    apply settled_of step
    constructor
    · rw [inserted, copied, givenUp, ← erased]
      simp [live]
    · unfold Moment.disposals
      rw [givenUp]
      dsimp only
      rw [calls, hooks_found found]
      exact freeCalls_filter _ _
    · rw [givenUp]
      intro gives empty
      apply gives
      dsimp only at empty ⊢
      rw [held_found found] at empty
      rw [empty, Multiset.coe_add, Multiset.coe_add] at moved
      have nothing := List.nil_perm.mp (Multiset.coe_eq_coe.mp moved)
      exact (List.append_eq_nil_iff.mp nothing).2
  · rw [run] at quiet
    exact (loud quiet).elim

theorem drop_settled (sorted : p.lists.Sorted) (name : String)
    (calm : (p.moment (.drop name)).Calm) : p.Settled (.drop name) := by
  cases found : p.lists.find? name with
  | none =>
    have step : p.step (.drop name) = p.refuse := retire_absent found
    apply settled_of step
    refine .unmoved rfl rfl rfl rfl ?_ rfl rfl
    exact held_absent found
  | some list =>
    have step : p.step (.drop name) = conclude (p.lists.erase name)
      ((do list.drop; return .done : Act (Session α) (Answer α)) p.session) := retire_found found
    refine retired_settled .done list.roster.values sorted found calm step ?_ ?_
    · simp only [bind_apply, PlainList.drop]
      rcases Session.freeAll_cases list.hooks.free list.roster.values p.session with
        ⟨t, called, freed⟩ | ⟨text, t, _, _, _, called, -⟩
      · rw [called]
        exact .inl ⟨t, rfl, freed.calls⟩
      · rw [called]
        exact .inr ⟨_, t, rfl, id⟩
    · intro calls log
      refine ⟨rfl, rfl, Prod.ext rfl (held_found found), ?_⟩
      exact (Multiset.zero_add _).symm

theorem release_settled (sorted : p.lists.Sorted) (name : String)
    (calm : (p.moment (.release name)).Calm) : p.Settled (.release name) := by
  cases found : p.lists.find? name with
  | none =>
    have step : p.step (.release name) = p.refuse := retire_absent found
    apply settled_of step
    refine .unmoved rfl rfl rfl rfl ?_ rfl rfl
    exact held_absent found
  | some list =>
    have step : p.step (.release name) = conclude (p.lists.erase name)
      ((do list.release; return .done : Act (Session α) (Answer α)) p.session) := retire_found found
    refine retired_settled .done list.roster.values sorted found calm step ?_ ?_
    · simp only [bind_apply]
      rcases list.release_ends p.session with ⟨t, released, calls⟩ | ⟨panic, t, released, loud⟩
      · rw [released]
        exact .inl ⟨t, rfl, calls⟩
      · rw [released]
        exact .inr ⟨panic, t, rfl, loud⟩
    · intro calls log
      refine ⟨rfl, rfl, Prod.ext rfl (held_found found), ?_⟩
      exact (Multiset.zero_add _).symm

theorem walkTaking_settled (sorted : p.lists.Sorted) (name : String) (steps : List WalkStep)
    (calm : (p.moment (.walkTaking name steps)).Calm) : p.Settled (.walkTaking name steps) := by
  cases found : p.lists.find? name with
  | none =>
    have step : p.step (.walkTaking name steps) = p.refuse := retire_absent found
    have passed : WalkStep.passedBy steps (p.view.held name) = [] := by
      rw [held_absent found]
      exact (WalkStep.walk_nil steps).1
    have left : WalkStep.leftBy steps (p.view.held name) = [] := by
      rw [held_absent found]
      exact (WalkStep.walk_nil steps).2
    apply settled_of step
    refine .unmoved rfl rfl rfl ?_ ?_ rfl rfl
    · exact passed
    · exact left
  | some list =>
    have step : p.step (.walkTaking name steps) = conclude (p.lists.erase name)
      ((do return .walkedValues (← list.walkTaking steps) : Act (Session α) (Answer α)) p.session) :=
      retire_found found
    refine retired_settled (.walkedValues (WalkStep.answers steps list.roster.values))
      (WalkStep.leftBy steps list.roster.values) sorted found calm step ?_ ?_
    · simp only [bind_apply, PlainList.walkTaking]
      rcases Session.freeAll_cases list.hooks.free (WalkStep.leftBy steps list.roster.values) p.session
        with ⟨t, called, freed⟩ | ⟨text, t, _, _, _, called, -⟩
      · rw [called]
        exact .inl ⟨t, rfl, freed.calls⟩
      · rw [called]
        exact .inr ⟨_, t, rfl, id⟩
    · intro calls log
      rw [← held_found found]
      exact ⟨rfl, rfl, rfl, (WalkStep.balance_all steps (p.view.held name)).symm⟩

end PlainStore

end LinkedSlots
