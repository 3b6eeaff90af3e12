import LinkedSlots.Proofs.Bystanders
import LinkedSlots.Proofs.Deque
import LinkedSlots.Proofs.Discarding
import LinkedSlots.Proofs.Stability
import Mathlib

namespace LinkedSlots

variable {α β σ τ ι : Type}

structure Taken (ι : Type) where
  front : List ι
  back : List ι

namespace Taken

def addFront (taken : Taken ι) (items : List ι) : Taken ι :=
  { taken with front := taken.front ++ items }

def addBack (taken : Taken ι) (items : List ι) : Taken ι :=
  { taken with back := items ++ taken.back }

def Around (all : List ι) (taken : Taken ι) (left : List ι) : Prop :=
  taken.front ++ left ++ taken.back = all

variable {all left : List ι} {taken : Taken ι} {item : ι}

theorem Around.addFront (around : taken.Around all (item :: left)) :
    (taken.addFront [item]).Around all left := by
  unfold Around at around ⊢
  rw [← around, Taken.addFront, ← List.append_cons]

theorem Around.addBack (around : taken.Around all (left ++ [item])) :
    (taken.addBack [item]).Around all left := by
  unfold Around at around ⊢
  rw [← around, ← List.append_assoc, List.append_assoc _ [item]]
  rfl

/-- What is not left has been taken. -/
theorem Around.others (around : taken.Around all left) {gone : List ι}
    (perm : (gone ++ left).Perm all) : gone.Perm (taken.front ++ taken.back) := by
  have aside : (taken.front ++ left ++ taken.back).Perm (taken.front ++ taken.back ++ left) := by
    rw [List.append_assoc, List.append_assoc]
    exact List.perm_append_comm.append_left taken.front
  rw [around] at aside
  exact (List.perm_append_right_iff left).mp (perm.trans aside)

theorem addFront_nil (taken : Taken ι) : taken.addFront [] = taken := by
  rw [addFront, List.append_nil]

theorem addBack_nil (taken : Taken ι) : taken.addBack [] = taken := rfl

end Taken

namespace Walk

def noting (note : Taken ι → List ι → Taken ι) (take : Edit σ (Option ι)) :
    Edit (σ × Taken ι) (Option ι) := fun (s, taken) =>
  match take s with
  | .ok item? t => .ok item? (t, note taken item?.toList)
  | .error cause t => .error cause (t, taken)

def recorded (walk : Walk σ ι) : Walk (σ × Taken ι) ι where
  next := noting .addFront walk.next
  nextBack := noting .addBack walk.nextBack
  remaining := fun (s, _) => walk.remaining s

section Shadows

variable {R : σ → τ → Prop} {walk : Walk σ ι} {other : Walk τ ι} {take : Edit σ (Option ι)}
  {take' : Edit τ (Option ι)}

structure Shadows (R : σ → τ → Prop) (walk : Walk σ ι) (other : Walk τ ι) : Prop where
  next : Simulates Eq R walk.next other.next
  nextBack : Simulates Eq R walk.nextBack other.nextBack
  remaining : ∀ s t, R s t → walk.remaining s = other.remaining t

theorem takeNth_simulates (takes : Simulates Eq R take take') (skipped : Nat) :
    Simulates Eq R (takeNth take skipped) (takeNth take' skipped) := by
  induction skipped with
  | zero => exact takes
  | succ skipped ih =>
    apply takes.bind
    rintro item? _ rfl
    cases item? with
    | none => exact .pure rfl
    | some item => exact ih

theorem takeAll_simulates (takes : Simulates Eq R take take') (count : Nat) :
    Simulates Eq R (takeAll take pure count) (takeAll take' pure count) := by
  induction count with
  | zero => exact .pure rfl
  | succ count ih =>
    apply takes.bind
    rintro item? _ rfl
    cases item? with
    | none => exact .pure rfl
    | some item =>
      apply Simulates.bind (.pure rfl)
      rintro visited _ rfl
      apply ih.bind
      rintro later _ rfl
      exact .pure rfl

theorem visitItem_simulates (takes : Simulates Eq R take take') :
    Simulates Eq R (do visitItem pure (← take)) (do visitItem pure (← take')) := by
  apply takes.bind
  rintro item? _ rfl
  cases item? with
  | none => exact .pure rfl
  | some item =>
    apply Simulates.bind (.pure rfl)
    rintro visited _ rfl
    exact .pure rfl

theorem Shadows.perform (shadows : Shadows R walk other) (step : WalkStep) :
    Simulates Eq R (walk.perform pure step) (other.perform pure step) := by
  have counted (answer : Nat → WalkAnswer ι) :
      Simulates Eq R (do return answer (walk.remaining (← get)) : Edit σ (WalkAnswer ι))
        (do return answer (other.remaining (← get)) : Edit τ (WalkAnswer ι)) := by
    apply Simulates.get.bind
    intro s t states
    rw [shadows.remaining s t states]
    exact .pure rfl
  have all {take : Edit σ (Option ι)} {take' : Edit τ (Option ι)} (takes : Simulates Eq R take take') :
      Simulates Eq R
        (do return .items (← takeAll take pure (walk.remaining (← get))) : Edit σ (WalkAnswer ι))
        (do return .items (← takeAll take' pure (other.remaining (← get))) :
          Edit τ (WalkAnswer ι)) := by
    apply Simulates.get.bind
    intro s t states
    rw [shadows.remaining s t states]
    apply (takeAll_simulates takes _).bind
    rintro items _ rfl
    exact .pure rfl
  cases step with
  | next => exact visitItem_simulates shadows.next
  | nextBack => exact visitItem_simulates shadows.nextBack
  | length => exact counted .length
  | sizeHint => exact counted fun count => .bounds count count
  | nth skipped => exact visitItem_simulates (takeNth_simulates shadows.next skipped)
  | nthBack skipped => exact visitItem_simulates (takeNth_simulates shadows.nextBack skipped)
  | rest => exact all shadows.next
  | restBack => exact all shadows.nextBack

theorem Shadows.run (shadows : Shadows R walk other) (steps : List WalkStep) :
    Simulates Eq R (walk.run pure steps) (other.run pure steps) := by
  induction steps with
  | nil => exact .pure rfl
  | cons step steps ih =>
    apply (shadows.perform step).bind
    rintro answer _ rfl
    apply ih.bind
    rintro answers _ rfl
    exact .pure rfl

end Shadows

theorem noting_simulates (note : Taken ι → List ι → Taken ι) (take : Edit σ (Option ι)) :
    Simulates Eq (fun s t => s.1 = t) (noting note take) take := by
  rintro ⟨s, taken⟩ _ rfl
  unfold noting
  dsimp only
  cases take s with
  | ok item? t => exact ⟨rfl, rfl⟩
  | error cause t => exact ⟨rfl, rfl⟩

theorem recorded_shadows (walk : Walk σ ι) : Shadows (fun s t => s.1 = t) walk.recorded walk := by
  refine ⟨noting_simulates _ _, noting_simulates _ _, ?_⟩
  rintro ⟨s, taken⟩ _ rfl
  rfl

/-- To keep the record does not change the walk. -/
theorem run_of_recorded {walk : Walk σ ι} {steps : List WalkStep} {s t : σ} {taken taken' : Taken ι}
    {answers : List (WalkAnswer ι)}
    (run : walk.recorded.run pure steps (s, taken) = .ok answers (t, taken')) :
    walk.run pure steps s = .ok answers t := by
  have alike := walk.recorded_shadows.run steps (s, taken) s rfl
  rw [run] at alike
  rcases alike.cases with ⟨_, _, _, _, ended, ended', rfl, rfl⟩ | ⟨_, _, _, ended, -⟩
  · cases ended
    exact ended'
  · cases ended

section Recorded

variable {κ : Type} {walk : Walk σ ι} {name : κ → ι} {Left : σ → List κ → List κ → Prop}

theorem Takes.noting {take : Edit σ (Option ι)} (takes : Takes take pure name name Left)
    {note : Taken ι → List ι → Taken ι} (Record : Taken ι → List κ → Prop)
    (none : ∀ taken, note taken [] = taken)
    (some : ∀ taken item items, Record taken (item :: items) → Record (note taken [name item]) items) :
    Takes (Walk.noting note take) pure name name
      fun s items seen => Left s.1 items seen ∧ Record s.2 items := by
  constructor
  · rintro ⟨s, taken⟩ seen ⟨start, record⟩
    rcases takes.none s seen start with ⟨t, run, rest⟩
    refine ⟨(t, taken), ?_, rest, record⟩
    simp only [Walk.noting, run, Option.toList_none, none]
  · rintro ⟨s, taken⟩ item items seen ⟨start, record⟩
    rcases takes.some s item items seen start with ⟨t, _, run, rest, visited, rest'⟩
    cases visited
    have record' := some taken item items record
    refine ⟨(t, note taken [name item]), _, ?_, ⟨rest, record'⟩, rfl, rest', record'⟩
    simp only [Walk.noting, run, Option.toList_some]

/-- At every point of the walk the items taken stand around those that are left. -/
theorem Visits.recorded (visits : walk.Visits pure name name Left) (all : List ι) :
    walk.recorded.Visits pure name name
      fun s items seen => Left s.1 items seen ∧ s.2.Around all (items.map name) := by
  constructor
  case next =>
    apply visits.next.noting (fun taken items => taken.Around all (items.map name)) Taken.addFront_nil
    intro taken item items around
    exact around.addFront
  case nextBack =>
    apply visits.nextBack.noting (fun taken items => taken.Around all (items.reverse.map name))
      Taken.addBack_nil
    intro taken item items around
    rw [List.reverse_cons, List.map_append] at around
    exact around.addBack
  case remaining =>
    rintro ⟨s, taken⟩ items seen ⟨start, -⟩
    exact visits.remaining s items seen start

end Recorded

end Walk

namespace Chain

/-- A walk that takes values out splits them in three: those taken from the front, those that are
    still inside, and those taken from the back. -/
structure Splits (c : Chain α) (values : List α) (steps : List WalkStep) (rest : Chain α)
    (taken : Taken α) : Prop where
  recorded : takingWalk.recorded.run pure steps (c, ⟨[], []⟩) =
    .ok (WalkStep.answers steps values) (rest, taken)
  walk : Chain.walkTaking steps c = .ok (WalkStep.answers steps values) rest
  inside : rest.values = .ok (WalkStep.leftBy steps values)
  around : taken.Around values (WalkStep.leftBy steps values)
  handedOut : ((WalkStep.answers steps values).flatMap WalkAnswer.given ++
    WalkStep.passedBy steps values).Perm (taken.front ++ taken.back)

theorem Represents.splits {c : Chain α} {q : Roster α} (rep : c.Represents q)
    (steps : List WalkStep) : ∃ rest taken, c.Splits q.values steps rest taken := by
  have visits := takingWalk_visits.recorded q.values
  have start : Taken.Around q.values ⟨[], []⟩ (q.entries.map Prod.snd) := List.append_nil _
  have ended : ∃ ended, takingWalk.recorded.run pure steps (c, ⟨[], []⟩) = .ok _ ended ∧ _ :=
    visits.run steps [] ⟨⟨q, rep, rfl⟩, start⟩
  rcases ended with ⟨⟨rest, taken⟩, run, ⟨q', rep', left⟩, around⟩
  rw [← WalkStep.answers_map] at run
  rw [← WalkStep.leftBy_map] at around
  have inside : q'.values = WalkStep.leftBy steps q.values := by
    rw [Roster.values, left, ← WalkStep.leftBy_map, Roster.values]
  refine ⟨rest, taken, run, Walk.run_of_recorded run, ?_, around, ?_⟩
  · rw [rep'.values, inside]
  · exact around.others (WalkStep.balance_perm steps q.values)

end Chain

namespace Store

variable {s : Store α} {p : PlainStore α} {name : String} {list : HookedList α} {plain : PlainList α}
  [BEq α] [Outlined α] [Stored α]

/-- What becomes of the values that a walk leaves in its list: they are discarded with the list. -/
structure Consumes (s : Store α) (name : String) (list : HookedList α) (values : List α)
    (steps : List WalkStep) : Prop where
  discards : Discards s.ledger list.hooks.free (WalkStep.leftBy steps values) .hook
    ⟨.returned (.walkedValues (WalkStep.answers steps values)), [], []⟩
    (s.step (.walkTaking name steps)).1
  freed : ∃ freed, freed <+: WalkStep.leftBy steps values ∧
    (s.step (.walkTaking name steps)).1.calls = freeCalls list.hooks.free freed
  exhausted : WalkStep.leftBy steps values = [] → (s.step (.walkTaking name steps)).1 =
    ⟨.returned (.walkedValues (WalkStep.answers steps values)), [], []⟩
  gone : (s.step (.walkTaking name steps)).2.lists = s.lists.erase name

theorem Mirrors.consumes (mirrors : s.Mirrors p) (found : s.lists.find? name = some list)
    (there : p.lists.find? name = some plain) (same : list.Mirrors plain) (steps : List WalkStep) :
    s.Consumes name list plain.roster.values steps := by
  have discards := (mirrors.drops found there same).walked steps
  constructor
  case discards => exact discards
  case freed => exact discards.freed
  case exhausted =>
    intro nothing
    rw [nothing] at discards
    exact discards.of_nil
  case gone =>
    show (s.retire name _).2.lists = _
    unfold retire
    rw [found]
    exact conclude_lists _ _

/-- A walk that takes values out of a list ends the list. The values are those it takes from the front,
    those it leaves, which alone reach the free hook, and those it takes from the back. -/
theorem run_consumes (ops : List (Op α)) {name : String} {list : HookedList α}
    (found : (Store.empty.run ops).2.lists.find? name = some list) (steps : List WalkStep) :
    ∃ values rest taken, list.chain.values = .ok values ∧
      list.chain.Splits values steps rest taken ∧
      (Store.empty.run ops).2.Consumes name list values steps := by
  rcases run_found ops found with ⟨p, plain, mirrors, -, there, same⟩
  rcases same.represents.splits steps with ⟨rest, taken, splits⟩
  exact ⟨plain.roster.values, rest, taken, same.represents.values, splits,
    mirrors.consumes found there same steps⟩

/-- Node 4 is passed over from the back. The hook panics at the first of the two values that are left,
    and the other one is lost. -/
theorem run_consumes_from_both_ends :
    let ops : List (Op Value) := [
      .create "a" { free := some (Value.Freeing.policy "free" (.panicAt 0)) },
      .on "a" (.insert .available .tail (.int 1)),
      .on "a" (.insert .available .head (.int 2)),
      .on "a" (.insert .available .tail (.int 3)),
      .on "a" (.insert .available .head (.int 4)),
      .on "a" (.insert .available .tail (.int 5))]
    let steps : List WalkStep := [.next, .nthBack 1]
    ∃ list rest taken, (Store.empty.run ops).2.lists.find? "a" = some list ∧
      list.chain.Splits [.int 4, .int 2, .int 1, .int 3, .int 5] steps rest taken ∧
      taken.front = [.int 4] ∧ taken.back = [.int 3, .int 5] ∧
      ((Store.empty.run ops).2.step (.walkTaking "a" steps)).1 =
        ⟨.panicked (.hook "free hook panicked"), [.free 0 "free" (.int 2)], []⟩ := by
  intro ops steps
  have present : ((Store.empty.run ops).2.lists.find? "a").map (fun list =>
      (list.hooks.free, list.chain.values.toOption,
        match Chain.takingWalk.recorded.run pure [.next, .nthBack 1] (list.chain, ⟨[], []⟩) with
        | .ok _ (_, taken) => some taken
        | .error _ _ => none)) =
      some (some ⟨Value.Freeing.policy "free" (.panicAt 0), 0⟩,
        some [.int 4, .int 2, .int 1, .int 3, .int 5], some ⟨[.int 4], [.int 3, .int 5]⟩) := by
    cbv
  have uncalled : (Store.empty.run ops).2.ledger.frees.earlier 0 = [] := by
    cbv
  rcases Option.map_eq_some_iff.mp present with ⟨list, found, facts⟩
  simp only [Prod.mk.injEq] at facts
  rcases facts with ⟨installed, held, record⟩
  rcases run_consumes ops found steps with ⟨values, rest, taken, shown, splits, consumes⟩
  rw [shown] at held
  cases held
  have refuses : (Value.Freeing.policy "free" (.panicAt 0)).reply
      ((Store.empty.run ops).2.ledger.frees.earlier 0 ++ []) (.int 2) =
        .error "free hook panicked" := by
    rw [uncalled]
    rfl
  rw [splits.recorded] at record
  cases record
  exact ⟨list, rest, _, found, splits, rfl, rfl,
    consumes.discards.stops _ [] _ [.int 1] _ installed rfl trivial refuses⟩

end Store

end LinkedSlots
