import LinkedSlots.Proofs.Computation
import LinkedSlots.Walk.Basic
import Mathlib.Algebra.Order.Group.Multiset
import Mathlib.Tactic.Abel

namespace LinkedSlots

variable {β σ ι : Type}

namespace WalkStep

def answer : WalkStep → List β → WalkAnswer β
  | .next, items => .item items.head?
  | .nextBack, items => .item items.getLast?
  | .length, items => .length items.length
  | .sizeHint, items => .bounds items.length items.length
  | .nth skipped, items => .item items[skipped]?
  | .nthBack skipped, items => .item items.reverse[skipped]?
  | .rest, items => .items items
  | .restBack, items => .items items.reverse

def left : WalkStep → List β → List β
  | .next, items => items.tail
  | .nextBack, items => items.dropLast
  | .length, items => items
  | .sizeHint, items => items
  | .nth skipped, items => items.drop (skipped + 1)
  | .nthBack skipped, items => (items.reverse.drop (skipped + 1)).reverse
  | .rest, _ => []
  | .restBack, _ => []

def passed : WalkStep → List β → List β
  | .nth skipped, items => items.take skipped
  | .nthBack skipped, items => items.reverse.take skipped
  | _, _ => []

def answers : List WalkStep → List β → List (WalkAnswer β)
  | [], _ => []
  | step :: steps, items => step.answer items :: answers steps (step.left items)

def leftBy : List WalkStep → List β → List β
  | [], items => items
  | step :: steps, items => leftBy steps (step.left items)

def passedBy : List WalkStep → List β → List β
  | [], _ => []
  | step :: steps, items => step.passed items ++ passedBy steps (step.left items)

end WalkStep

def WalkAnswer.given : WalkAnswer β → List β
  | .item item? => item?.toList
  | .items all => all
  | _ => []

theorem drop_split (count : Nat) (items : List β) :
    (items[count]?.toList ++ items.take count ++ items.drop (count + 1)).Perm items := by
  have whole := List.take_append_drop count items
  have head : items[count]? = (items.drop count).head? := by simp
  have tail : items.drop (count + 1) = (items.drop count).tail := by simp
  rw [head, tail]
  cases behind : items.drop count with
  | nil =>
    rw [behind, List.append_nil] at whole
    simp [whole]
  | cons item rest =>
    rw [behind] at whole
    conv_rhs => rw [← whole]
    exact List.perm_middle.symm

theorem WalkStep.balance (step : WalkStep) (items : List β) :
    ((step.answer items).given ++ step.passed items ++ step.left items).Perm items := by
  cases step with
  | next => cases items <;> exact .refl _
  | nextBack =>
    rcases List.eq_nil_or_concat' items with rfl | ⟨front, last, rfl⟩
    · exact .refl _
    · simpa [answer, WalkAnswer.given, passed, left] using (List.perm_append_singleton last front).symm
  | length => exact .refl _
  | sizeHint => exact .refl _
  | nth skipped => exact drop_split skipped items
  | nthBack skipped =>
    have split := drop_split skipped items.reverse
    refine List.Perm.trans ?_ (split.trans items.reverse_perm)
    exact List.Perm.append_left _ (List.reverse_perm _)
  | rest => simp [answer, WalkAnswer.given, passed, left]
  | restBack => simp [answer, WalkAnswer.given, passed, left]

/-- No item is lost or doubled on a walk. -/
theorem WalkStep.balance_all (steps : List WalkStep) (items : List β) :
    (((answers steps items).flatMap WalkAnswer.given : List β) : Multiset β) +
      passedBy steps items + leftBy steps items = items := by
  induction steps generalizing items with
  | nil => simp [answers, passedBy, leftBy]
  | cons step steps ih =>
    have first := Multiset.coe_eq_coe.mpr (step.balance items)
    have later := ih (step.left items)
    simp only [← Multiset.coe_add] at first
    simp only [answers, passedBy, leftBy, List.flatMap_cons, ← Multiset.coe_add]
    rw [← first, ← later]
    abel

theorem WalkStep.balance_perm (steps : List WalkStep) (items : List β) :
    ((answers steps items).flatMap WalkAnswer.given ++ passedBy steps items ++
      leftBy steps items).Perm items := by
  apply Multiset.coe_eq_coe.mp
  simpa only [← Multiset.coe_add] using balance_all steps items

theorem WalkStep.given_among {steps : List WalkStep} {items : List β} {item : β}
    (given : item ∈ (answers steps items).flatMap WalkAnswer.given) : item ∈ items := by
  have among : item ∈ (items : Multiset β) := by
    rw [← balance_all steps items]
    exact Multiset.mem_add.mpr (.inl (Multiset.mem_add.mpr (.inl given)))
  exact among

def WalkAnswer.map {κ : Type} (change : κ → β) : WalkAnswer κ → WalkAnswer β
  | .item item? => .item (item?.map change)
  | .length count => .length count
  | .bounds lower upper => .bounds lower upper
  | .items all => .items (all.map change)

section Map

variable {κ : Type} (change : κ → β)

theorem WalkStep.answer_map (step : WalkStep) (items : List κ) :
    step.answer (items.map change) = (step.answer items).map change := by
  cases step <;> simp [answer, WalkAnswer.map, ← List.map_reverse]

theorem WalkStep.left_map (step : WalkStep) (items : List κ) :
    step.left (items.map change) = (step.left items).map change := by
  cases step <;> simp [left, ← List.map_reverse, ← List.map_drop]

theorem WalkStep.answers_map (steps : List WalkStep) (items : List κ) :
    answers steps (items.map change) = (answers steps items).map (WalkAnswer.map change) := by
  induction steps generalizing items with
  | nil => rfl
  | cons step steps ih => simp [answers, answer_map, left_map, ih]

theorem WalkStep.leftBy_map (steps : List WalkStep) (items : List κ) :
    leftBy steps (items.map change) = (leftBy steps items).map change := by
  induction steps generalizing items with
  | nil => rfl
  | cons step steps ih => simp [leftBy, left_map, ih]

theorem WalkAnswer.given_map (answer : WalkAnswer κ) :
    (answer.map change).given = answer.given.map change := by
  cases answer with
  | item item? => cases item? <;> rfl
  | length count => rfl
  | bounds lower upper => rfl
  | items all => rfl

theorem WalkStep.given_map (steps : List WalkStep) (items : List κ) :
    (answers steps (items.map change)).flatMap WalkAnswer.given =
      ((answers steps items).flatMap WalkAnswer.given).map change := by
  rw [answers_map, List.flatMap_map, List.map_flatMap]
  exact List.flatMap_congr fun answer _ => answer.given_map change

end Map

namespace Walk

variable {κ : Type} {take : Edit σ (Option ι)} {visit : ι → Edit σ β} {name : κ → ι}
  {result : κ → β} {Left : σ → List κ → List κ → Prop}

/-- Taking from one side of a state that stands for the items still to come and the items visited so
    far. An item that was taken can be visited, or passed over. -/
structure Takes (take : Edit σ (Option ι)) (visit : ι → Edit σ β) (name : κ → ι) (result : κ → β)
    (Left : σ → List κ → List κ → Prop) : Prop where
  none : ∀ s seen, Left s [] seen → ∃ t, take s = .ok none t ∧ Left t [] seen
  some : ∀ s item items seen, Left s (item :: items) seen →
    ∃ t u, take s = .ok (some (name item)) t ∧ Left t items seen ∧
      visit (name item) t = .ok (result item) u ∧ Left u items (seen ++ [item])

structure Visits (walk : Walk σ ι) (visit : ι → Edit σ β) (name : κ → ι) (result : κ → β)
    (Left : σ → List κ → List κ → Prop) : Prop where
  next : Takes walk.next visit name result Left
  nextBack : Takes walk.nextBack visit name result fun s items seen => Left s items.reverse seen
  remaining : ∀ s items seen, Left s items seen → walk.remaining s = items.length

theorem Takes.nth (takes : Takes take visit name result Left) (skipped : Nat) {s : σ}
    {items : List κ} (seen : List κ) (start : Left s items seen) :
    ∃ t u, takeNth take skipped s = .ok (items[skipped]?.map name) t ∧
      visitItem visit (items[skipped]?.map name) t = .ok (.item (items[skipped]?.map result)) u ∧
      Left u (items.drop (skipped + 1)) (seen ++ items[skipped]?.toList) := by
  induction skipped generalizing s items with
  | zero =>
    cases items with
    | nil =>
      obtain ⟨t, run, rest⟩ := takes.none s seen start
      exact ⟨t, t, by simpa [takeNth] using run, rfl, by simpa using rest⟩
    | cons item items =>
      obtain ⟨t, u, run, -, visited, rest⟩ := takes.some s item items seen start
      exact ⟨t, u, by simpa [takeNth] using run, by simp [visitItem, visited], by simpa using rest⟩
  | succ skipped ih =>
    cases items with
    | nil =>
      obtain ⟨t, run, rest⟩ := takes.none s seen start
      exact ⟨t, t, by simp [takeNth, run], rfl, by simpa using rest⟩
    | cons item items =>
      obtain ⟨t, -, run, rest, -, -⟩ := takes.some s item items seen start
      obtain ⟨u, v, later, visited, behind⟩ := ih rest
      exact ⟨u, v, by simpa [takeNth, run] using later, by simpa using visited,
        by simpa using behind⟩

theorem Takes.all (takes : Takes take visit name result Left) {s : σ} {items : List κ}
    (seen : List κ) (start : Left s items seen) :
    ∃ t, takeAll take visit items.length s = .ok (items.map result) t ∧
      Left t [] (seen ++ items) := by
  induction items generalizing s seen with
  | nil => exact ⟨s, rfl, by simpa using start⟩
  | cons item items ih =>
    obtain ⟨t, u, run, -, visited, rest⟩ := takes.some s item items seen start
    obtain ⟨v, later, done⟩ := ih (seen ++ [item]) rest
    exact ⟨v, by simp [takeAll, run, visited, later], by simpa using done⟩

theorem Visits.perform {walk : Walk σ ι} (visits : walk.Visits visit name result Left)
    (step : WalkStep) {s : σ} {items seen : List κ} (start : Left s items seen) :
    ∃ t, walk.perform visit step s = .ok ((step.answer items).map result) t ∧
      Left t (step.left items) (seen ++ (step.answer items).given) := by
  have reversed : Left s items.reverse.reverse seen := by simpa using start
  have unseen : Left s items (seen ++ []) := by simpa using start
  have counted := visits.remaining s items seen start
  cases step with
  | next =>
    obtain ⟨t, u, run, visited, rest⟩ := visits.next.nth 0 seen start
    simp only [takeNth, ← List.head?_eq_getElem?, List.drop_one, Nat.zero_add] at run visited rest
    refine ⟨u, ?_, rest⟩
    simp only [Walk.perform, bind_apply, run]
    exact visited
  | nextBack =>
    obtain ⟨t, u, run, visited, rest⟩ := visits.nextBack.nth 0 seen reversed
    simp only [takeNth, ← List.head?_eq_getElem?, List.head?_reverse] at run visited rest
    refine ⟨u, ?_, by simpa [WalkStep.left, WalkStep.answer, WalkAnswer.given] using rest⟩
    simp only [Walk.perform, bind_apply, run]
    exact visited
  | length => exact ⟨s, by simp [Walk.perform, counted, WalkStep.answer, WalkAnswer.map], unseen⟩
  | sizeHint => exact ⟨s, by simp [Walk.perform, counted, WalkStep.answer, WalkAnswer.map], unseen⟩
  | nth skipped =>
    obtain ⟨t, u, run, visited, rest⟩ := visits.next.nth skipped seen start
    refine ⟨u, ?_, rest⟩
    simp only [Walk.perform, bind_apply, run]
    exact visited
  | nthBack skipped =>
    obtain ⟨t, u, run, visited, rest⟩ := visits.nextBack.nth skipped seen reversed
    refine ⟨u, ?_, rest⟩
    simp only [Walk.perform, bind_apply, run]
    exact visited
  | rest =>
    obtain ⟨t, run, rest⟩ := visits.next.all seen start
    exact ⟨t, by simp [Walk.perform, counted, run, WalkStep.answer, WalkAnswer.map], rest⟩
  | restBack =>
    obtain ⟨t, run, rest⟩ := visits.nextBack.all seen reversed
    rw [List.length_reverse] at run
    exact ⟨t, by simp [Walk.perform, counted, run, WalkStep.answer, WalkAnswer.map], rest⟩

/-- A whole walk is a whole walk over a double-ended queue, and visits what the queue hands out. -/
theorem Visits.run {walk : Walk σ ι} (visits : walk.Visits visit name result Left)
    (steps : List WalkStep) {s : σ} {items : List κ} (seen : List κ) (start : Left s items seen) :
    ∃ t, walk.run visit steps s =
        .ok ((WalkStep.answers steps items).map (WalkAnswer.map result)) t ∧
      Left t (WalkStep.leftBy steps items)
        (seen ++ (WalkStep.answers steps items).flatMap WalkAnswer.given) := by
  induction steps generalizing s items seen with
  | nil => exact ⟨s, rfl, by simpa [WalkStep.answers, WalkStep.leftBy] using start⟩
  | cons step steps ih =>
    obtain ⟨t, first, rest⟩ := visits.perform step start
    obtain ⟨u, later, behind⟩ := ih _ rest
    refine ⟨u, by simp [Walk.run, first, later, WalkStep.answers], ?_⟩
    simpa [WalkStep.answers, WalkStep.leftBy] using behind

end Walk

end LinkedSlots
