import LinkedSlots.Proofs.Refinement
import LinkedSlots.Proofs.Totals
import LinkedSlots.Value.Policy

namespace LinkedSlots

variable {α β : Type}

def Walk.queue : Walk (List β) β where
  next := fun items => .ok items.head? items.tail
  nextBack := fun items => .ok items.getLast? items.dropLast
  remaining := List.length

theorem Walk.queue_visits :
    (queue (β := β)).Visits pure id id fun items left _ => items = left := by
  constructor
  · constructor
    · rintro _ seen rfl
      exact ⟨[], rfl, rfl⟩
    · rintro _ item items seen rfl
      exact ⟨items, items, rfl, rfl, rfl, rfl⟩
  · constructor
    · rintro _ seen rfl
      exact ⟨[], rfl, rfl⟩
    · rintro _ item items seen rfl
      refine ⟨items.reverse, items.reverse, ?_, rfl, rfl, rfl⟩
      simp [queue]
  · rintro items _ seen rfl
    rfl

theorem WalkAnswer.map_id (answer : WalkAnswer β) : answer.map id = answer := by
  cases answer <;> simp [map]

theorem Walk.queue_run (steps : List WalkStep) (items : List β) :
    queue.run pure steps items =
      .ok (WalkStep.answers steps items) (WalkStep.leftBy steps items) := by
  rcases queue_visits.run steps [] (rfl : items = items) with ⟨left, run, same⟩
  have unnamed : WalkAnswer.map (id : β → β) = id := funext WalkAnswer.map_id
  rw [unnamed, List.map_id, same] at run
  exact run

namespace WalkStep

theorem answers_append (steps more : List WalkStep) (items : List β) :
    answers (steps ++ more) items = answers steps items ++ answers more (leftBy steps items) := by
  induction steps generalizing items with
  | nil => rfl
  | cons step steps ih => exact congrArg (step.answer items :: ·) (ih _)

theorem leftBy_append (steps more : List WalkStep) (items : List β) :
    leftBy (steps ++ more) items = leftBy more (leftBy steps items) := by
  induction steps generalizing items with
  | nil => rfl
  | cons step steps ih => exact ih _

/-- Nothing comes of an empty queue. -/
theorem left_nil (step : WalkStep) : step.left ([] : List β) = [] := by
  cases step <;> simp [left]

theorem leftBy_nil (steps : List WalkStep) : leftBy steps ([] : List β) = [] := by
  induction steps with
  | nil => rfl
  | cons step steps ih => rw [leftBy, left_nil, ih]

theorem answers_nil (steps : List WalkStep) :
    answers steps ([] : List β) = steps.map fun step => step.answer [] := by
  induction steps with
  | nil => rfl
  | cons step steps ih => rw [answers, left_nil, ih, List.map_cons]

def Skips (step : WalkStep) (skipped : Nat) : Prop :=
  step = .nth skipped ∨ step = .nthBack skipped

/-- Who asks for an item past the end gets none, and none is left. -/
theorem Skips.beyond {step : WalkStep} {skipped : Nat} (skips : step.Skips skipped) {items : List β}
    (short : items.length ≤ skipped) : step.answer items = .item none ∧ step.left items = [] := by
  rcases skips with rfl | rfl
  · refine ⟨?_, ?_⟩
    · rw [answer, List.getElem?_eq_none short]
    · rw [left, List.drop_eq_nil_of_le (Nat.le_succ_of_le short)]
  · have short' : items.reverse.length ≤ skipped := items.length_reverse ▸ short
    refine ⟨?_, ?_⟩
    · rw [answer, List.getElem?_eq_none short']
    · rw [left, List.drop_eq_nil_of_le (Nat.le_succ_of_le short'), List.reverse_nil]

end WalkStep

namespace Chain

structure Walked (c : Chain α) (entries : List (Handle × α)) (steps : List WalkStep)
    (answers : List (WalkAnswer (Handle × α))) (left : List (Handle × α)) : Prop where
  queue : Walk.queue.run pure steps entries = .ok answers left
  handles : c.walkHandles steps = .ok (answers.map (WalkAnswer.map Prod.fst))
  values : c.walkValues steps = .ok (answers.map (WalkAnswer.map Prod.snd))
  updating : ∀ changes, ∃ changed,
    Chain.walkUpdating changes steps c = .ok (answers.map (WalkAnswer.map Prod.snd)) changed ∧
      changed.entries = .ok (entries.map (touch changes (answers.flatMap WalkAnswer.given)))
  taking : ∃ rest, Chain.walkTaking steps c = .ok (answers.map (WalkAnswer.map Prod.snd)) rest ∧
    rest.values = .ok (left.map Prod.snd)
  once : (answers.flatMap WalkAnswer.given ++ WalkStep.passedBy steps entries ++ left).Perm entries

variable {c : Chain α} {q : Roster α}

theorem Represents.walked (rep : c.Represents q) (steps : List WalkStep) :
    c.Walked q.entries steps (WalkStep.answers steps q.entries)
      (WalkStep.leftBy steps q.entries) := by
  have values : WalkStep.answers steps q.values =
      (WalkStep.answers steps q.entries).map (WalkAnswer.map Prod.snd) :=
    WalkStep.answers_map Prod.snd steps q.entries
  constructor
  case queue => exact Walk.queue_run steps q.entries
  case handles =>
    rw [rep.walkHandles, Roster.handles, WalkStep.answers_map]
  case values => rw [rep.walkValues, values]
  case updating =>
    intro changes
    rcases rep.walkUpdating changes steps with ⟨changed, run, rep'⟩
    rw [values] at run
    exact ⟨changed, run, rep'.entries⟩
  case taking =>
    rcases rep.walkTaking steps with ⟨rest, q', run, rep', left⟩
    rw [values] at run
    refine ⟨rest, run, ?_⟩
    rw [rep'.values, left, Roster.values, WalkStep.leftBy_map]
  case once => exact WalkStep.balance_perm steps q.entries

/-- A walk goes on as the queue does: both ends count what is left, an item past the end uses
    everything up, and then nothing is left for ever. -/
structure GoesOn (c : Chain α) (entries : List (Handle × α)) (steps : List WalkStep)
    (answers : List (WalkAnswer (Handle × α))) (left : List (Handle × α)) : Prop where
  counts : c.Walked entries (steps ++ [.length, .sizeHint])
    (answers ++ [.length left.length, .bounds left.length left.length]) left
  beyond : ∀ step skipped, step.Skips skipped → left.length ≤ skipped →
    c.Walked entries (steps ++ [step]) (answers ++ [.item none]) []
  exhausted : left = [] → ∀ more,
    c.Walked entries (steps ++ more) (answers ++ more.map fun step => step.answer []) []

theorem Represents.goesOn (rep : c.Represents q) (steps : List WalkStep) :
    c.GoesOn q.entries steps (WalkStep.answers steps q.entries)
      (WalkStep.leftBy steps q.entries) := by
  have longer (more : List WalkStep) := rep.walked (steps ++ more)
  simp only [WalkStep.answers_append, WalkStep.leftBy_append] at longer
  constructor
  case counts => exact longer [.length, .sizeHint]
  case beyond =>
    intro step skipped skips short
    rcases skips.beyond short with ⟨answer, left⟩
    have walked := longer [step]
    simp only [WalkStep.answers, WalkStep.leftBy, answer, left] at walked
    exact walked
  case exhausted =>
    intro nothing more
    have walked := longer more
    rw [nothing, WalkStep.answers_nil, WalkStep.leftBy_nil] at walked
    exact walked

end Chain

namespace Store

variable [BEq α] [Outlined α] [Stored α]

/-- Every walk over a list, in whatever order its steps come, is a walk over a double-ended queue of
    its entries, and a walk that changes nothing leaves everything as it was. -/
theorem run_walks (ops : List (Op α)) {name : String} {list : HookedList α}
    (found : (Store.empty.run ops).2.lists.find? name = some list) :
    let reached := (Store.empty.run ops).2
    ∃ entries, list.chain.entries = .ok entries ∧
      list.chain.handles = .ok (entries.map Prod.fst) ∧ (entries.map Prod.fst).Nodup ∧
      ∀ steps, ∃ answers left, list.chain.Walked entries steps answers left ∧
        list.chain.GoesOn entries steps answers left ∧
        reached.step (.on name (.walkHandles steps)) =
          (⟨.returned (.walkedHandles (answers.map (WalkAnswer.map Prod.fst))), [], []⟩, reached) ∧
        reached.step (.on name (.walkValues steps)) =
          (⟨.returned (.walkedValues (answers.map (WalkAnswer.map Prod.snd))), [], []⟩, reached) := by
  intro reached
  have mirrors : reached.Mirrors _ := (run_agrees empty_mirrors ops).2
  have sorted := PlainStore.run_sorted (p := PlainStore.empty) .nil ops
  rcases mirrors.found found with ⟨plain, there, same⟩
  have rep := same.represents
  refine ⟨plain.roster.entries, rep.entries, rep.handles, rep.proper.handles_nodup, ?_⟩
  intro steps
  refine ⟨_, _, rep.walked steps, rep.goesOn steps, ?_, ?_⟩
  · apply mirrors.step_back
    apply PlainStore.step_looks sorted there
    rw [← WalkStep.answers_map]
    rfl
  · apply mirrors.step_back
    apply PlainStore.step_looks sorted there
    rw [← WalkStep.answers_map]
    rfl

/-- The two ends meet at node 0, where slot 1 has been used again and the list has been rotated. -/
theorem run_walks_until_ends_meet :
    let ops : List (Op Value) := [
      .create "a" {},
      .on "a" (.insert .available .tail (.int 1)),
      .on "a" (.insert .available .tail (.int 2)),
      .on "a" (.insert .available .tail (.int 3)),
      .on "a" (.insert .available .tail (.int 4)),
      .on "a" (.delete 1),
      .on "a" (.insert .available .head (.int 5)),
      .on "a" .rotateTailToHead]
    let steps : List WalkStep := [.nextBack, .next, .sizeHint, .nth 1, .next, .nthBack 3, .restBack]
    ∃ list entries answers left, (Store.empty.run ops).2.lists.find? "a" = some list ∧
      list.chain.Walked entries steps answers left ∧
      answers.map (WalkAnswer.map Prod.fst) = [.item (some 2), .item (some 3), .bounds 2 2,
        .item (some 0), .item none, .item none, .items []] := by
  intro ops steps
  have shown : ((Store.empty.run ops).2.lists.find? "a").map
      (fun list => (list.chain.walkHandles steps).toOption) =
        some (some [.item (some 2), .item (some 3), .bounds 2 2, .item (some 0), .item none,
          .item none, .items []]) := by
    decide +kernel
  rcases Option.map_eq_some_iff.mp shown with ⟨list, found, handles⟩
  rcases run_walks ops found with ⟨entries, -, -, -, walks⟩
  rcases walks steps with ⟨answers, left, walked, -⟩
  rw [walked.handles] at handles
  exact ⟨list, entries, answers, left, found, walked, Option.some.inj handles⟩

end Store

end LinkedSlots
