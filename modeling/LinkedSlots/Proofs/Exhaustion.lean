import LinkedSlots.Proofs.Refinement
import LinkedSlots.Value.Policy

namespace LinkedSlots

variable {α : Type}

namespace Roster

variable {q : Roster α}

/-- Vacant slots count as room, so the slots made do not matter. -/
theorem Proper.reserve_exhausted [Stored α] (proper : q.Proper) (count : Nat) :
    (q.entries.length + count ≤ q.capacity ∧ q.reserve .exhausted count = .ok q) ∨
      (q.capacity < q.entries.length + count ∧
        ∃ shortage, q.reserve .exhausted count = .error shortage) := by
  rw [proper.reserve_eq]
  by_cases room : q.entries.length + count ≤ q.capacity
  · exact .inl ⟨room, if_pos room⟩
  · right
    refine ⟨Nat.lt_of_not_le room, ?_⟩
    dsimp only
    rw [if_neg room]
    split
    · exact ⟨.tooLarge, rfl⟩
    · exact ⟨.exhausted, rfl⟩

theorem Proper.reserveSlot_exhausted [Stored α] (proper : q.Proper) :
    (q.entries.length ≠ q.capacity ∧ q.reserveSlot .exhausted = .ok q) ∨
      (q.entries.length = q.capacity ∧ ∃ shortage, q.reserveSlot .exhausted = .error shortage) := by
  have counted := proper.count
  have fits := proper.fits
  rw [proper.reserveSlot_eq]
  rcases proper.reserve_exhausted 1 with ⟨room, granted⟩ | ⟨full, refused⟩
  · exact .inl ⟨by omega, granted⟩
  · exact .inr ⟨by omega, refused⟩

end Roster

def Chain.Live (c : Chain α) : Place → Prop
  | .head | .tail => True
  | .after handle | .before handle => (c.node? handle).isSome

theorem Chain.Represents.live_iff {c : Chain α} {q : Roster α} (rep : c.Represents q)
    (handle : Handle) : (c.node? handle).isSome ↔ handle ∈ q.handles := by
  rw [rep.node?_eq, Option.isSome_map, ← Option.ne_none_iff_isSome, Ne, locate_eq_none_iff]
  exact Decidable.not_not

theorem Chain.Represents.gap_live {c : Chain α} {q : Roster α} (rep : c.Represents q) {place : Place}
    (live : c.Live place) : ∃ front back, q.gap place = .ok (front, back) := by
  apply Roster.gap_found
  intro handle beside
  apply (rep.live_iff handle).mp
  cases place with
  | head => cases beside
  | tail => cases beside
  | after other =>
    cases beside
    exact live
  | before other =>
    cases beside
    exact live

/-- No list and no hook has noticed the operation. -/
structure PlainStore.Untouched (p : PlainStore α) (ended : Report α × PlainStore α) : Prop where
  lists : ∀ name, ended.2.lists.find? name = p.lists.find? name
  ledger : ended.2.ledger = p.ledger
  calls : ended.1.calls = []

structure Store.Untouched (s : Store α) (ended : Report α × Store α) : Prop where
  lists : ∀ name, ended.2.lists.find? name = s.lists.find? name
  ledger : ended.2.ledger = s.ledger
  calls : ended.1.calls = []

theorem Store.Agree.untouched {s : Store α} {p : PlainStore α} {ended : Report α × Store α}
    {plain : Report α × PlainStore α} (agree : Store.Agree ended plain) (mirrors : s.Mirrors p)
    (untouched : p.Untouched plain) : s.Untouched ended := by
  constructor
  · intro name
    have same := untouched.lists name
    rcases agree.stores.lists.find? name with ⟨absent, plainAbsent⟩ | ⟨list, after, found, plainFound, now⟩
    · rw [absent]
      rcases mirrors.lists.find? name with ⟨before, -⟩ | ⟨_, _, -, plainBefore, -⟩
      · exact before.symm
      · rw [plainAbsent, plainBefore] at same
        cases same
    · rw [found]
      rcases mirrors.lists.find? name with ⟨-, plainBefore⟩ | ⟨_, _, before, plainBefore, past⟩
      · rw [plainFound, plainBefore] at same
        cases same
      · rw [plainFound, plainBefore] at same
        cases same
        rw [before, now.determines past]
  · rw [agree.stores.ledger, untouched.ledger, mirrors.ledger]
  · rw [agree.report, untouched.calls]

namespace PlainStore

variable {p : PlainStore α} {name source : String} {list other : PlainList α}

theorem untouched_put (found : p.lists.find? name = some list) (answer : Answer α) (entry : LogEntry) :
    p.Untouched (conclude (p.lists.put name list) (.ok answer (p.session.noted entry))) :=
  ⟨fun other => Registry.find?_put_same found other, rfl, rfl⟩

theorem untouched_put_both (found : p.lists.find? name = some list)
    (found' : p.lists.find? source = some other) (answer : Answer α) (entry : LogEntry) :
    p.Untouched (conclude ((p.lists.put name list).put source other)
      (.ok answer (p.session.noted entry))) := by
  have second : (p.lists.put name list).find? source = some other := by
    rw [Registry.find?_put_same found, found']
  refine ⟨fun key => ?_, rfl, rfl⟩
  exact (Registry.find?_put_same second key).trans (Registry.find?_put_same found key)

variable [BEq α] [Outlined α] [Stored α]

theorem insert_fails {shortage : Shortage} {front back : List (Handle × α)} {memory : Memory}
    {place : Place} (found : p.lists.find? name = some list)
    (gap : list.roster.gap place = .ok (front, back))
    (refused : list.roster.reserveSlot memory = .error shortage) (value : α) :
    p.step (.on name (.insert memory place value)) =
      conclude (p.lists.put name list)
        (.ok (.rejected ⟨.outOfMemory, value⟩) (p.session.noted (.allocationFailed shortage))) := by
  rw [step_on found, PlainBench.perform, bind_apply, PlainBench.insert_apply, gap]
  simp only [refused]
  rfl

theorem insert_ends {grown : Roster α} {front back : List (Handle × α)} {memory : Memory}
    {place : Place} (found : p.lists.find? name = some list)
    (gap : list.roster.gap place = .ok (front, back))
    (granted : list.roster.reserveSlot memory = .ok grown) (value : α) :
    p.step (.on name (.insert memory place value)) =
      conclude (p.lists.put name ⟨grown.putBetween front back value, list.hooks⟩)
        (.ok (.handle (some grown.fresh)) p.session) := by
  rw [step_on found, PlainBench.perform, bind_apply, PlainBench.insert_apply, gap]
  simp only [granted]
  rfl

theorem reserve_ends (found : p.lists.find? name = some list) (memory : Memory) (count : Nat) :
    p.step (.on name (.reserve memory count)) = match list.roster.reserve memory count with
      | .ok grown => conclude (p.lists.put name ⟨grown, list.hooks⟩) (.ok .done p.session)
      | .error shortage => conclude (p.lists.put name list)
        (.ok (.failed .outOfMemory) (p.session.noted (.allocationFailed shortage))) := by
  rw [step_on found, PlainBench.perform, bind_apply, PlainBench.reserve_apply]
  cases list.roster.reserve memory count <;> rfl

omit [BEq α] [Outlined α] [Stored α] in
theorem replace_outcome (name : String) (list : PlainList α) (session : Session α) :
    (p.replace name list session).1.outcome = .returned .done ∨
      ∃ panic, (p.replace name list session).1.outcome = .panicked panic := by
  unfold replace
  cases p.lists.find? name with
  | none => exact .inl rfl
  | some old =>
    simp only [bind_apply]
    cases old.drop session with
    | ok done after => exact .inl rfl
    | error panic after => exact .inr ⟨panic, rfl⟩

omit [BEq α] [Outlined α] in
/-- Without memory only an empty list can be copied, and that before any hook is called. -/
theorem keep_exhausted (list : PlainList α) (hook? : Option (DupHook α)) (name : String) :
    (0 < list.roster.entries.length ∧
        ∃ entry, p.keep name (list.duplicateBy .exhausted hook? p.session) =
          conclude p.lists (.ok (.failed .outOfMemory) (p.session.noted entry))) ∨
      (¬ 0 < list.roster.entries.length ∧ ∃ made,
        p.keep name (list.duplicateBy .exhausted hook? p.session) = p.replace name made p.session) := by
  have room := (Roster.proper_empty (α := α)).reserve_exhausted list.roster.entries.length
  unfold PlainList.duplicateBy
  rcases room with ⟨fits, granted⟩ | ⟨none, shortage, refused⟩
  · have short : list.roster.entries.length = 0 := by
      simpa [Roster.empty] using fits
    have nothing : list.roster.values = [] := by
      rw [Roster.values, List.length_eq_zero_iff.mp short]
      rfl
    simp only [granted, nothing]
    exact .inr ⟨by omega, ⟨.empty, list.hooks⟩, rfl⟩
  · have positive : 0 < list.roster.entries.length := by
      simpa [Roster.empty] using none
    simp only [refused]
    exact .inl ⟨positive, .allocationFailed shortage, rfl⟩

end PlainStore

namespace Store

variable [BEq α] [Outlined α] [Stored α]

/-- The operation ends with this failure exactly under this condition, and then goes unnoticed. -/
structure FailsExactly (s : Store α) (op : Op α) (failure : Answer α) (condition : Prop)
    (success : Outcome α → Prop) : Prop where
  fails : (s.step op).1.outcome = .returned failure ↔ condition
  untouched : condition → s.Untouched (s.step op)
  succeeds : ¬ condition → success (s.step op).1.outcome

variable {s : Store α} {p : PlainStore α} {op : Op α} {failure : Answer α} {condition : Prop}
  {success : Outcome α → Prop} {name source : String} {list other : HookedList α}

theorem FailsExactly.failed (mirrors : s.Mirrors p) (holds : condition)
    (outcome : (p.step op).1.outcome = .returned failure) (untouched : p.Untouched (p.step op)) :
    s.FailsExactly op failure condition success := by
  have agree := step_agrees mirrors op
  constructor
  · rw [agree.report, outcome]
    exact iff_of_true rfl holds
  · exact fun _ => agree.untouched mirrors untouched
  · exact fun fails => (fails holds).elim

theorem FailsExactly.succeeded (mirrors : s.Mirrors p) (fails : ¬ condition)
    (succeeded : success (p.step op).1.outcome) (differs : ¬ success (.returned failure)) :
    s.FailsExactly op failure condition success := by
  have agree := step_agrees mirrors op
  rw [← agree.report] at succeeded
  constructor
  · exact iff_of_false (fun same => differs (same ▸ succeeded)) fails
  · exact fun holds => (fails holds).elim
  · exact fun _ => succeeded

theorem insert_exhausted (mirrors : s.Mirrors p) (found : s.lists.find? name = some list)
    {place : Place} (live : list.chain.Live place) (value : α) :
    s.FailsExactly (.on name (.insert .exhausted place value)) (.rejected ⟨.outOfMemory, value⟩)
      (list.chain.length = list.chain.capacity)
      (fun outcome => ∃ handle, outcome = .returned (.handle (some handle))) := by
  rcases mirrors.found found with ⟨plain, there, same⟩
  rcases same.represents.gap_live live with ⟨front, back, gap⟩
  rw [same.represents.length, same.represents.capacity]
  rcases same.represents.proper.reserveSlot_exhausted with ⟨room, granted⟩ | ⟨full, shortage, refused⟩
  · apply FailsExactly.succeeded mirrors room
    · rw [PlainStore.insert_ends there gap granted value]
      exact ⟨_, rfl⟩
    · rintro ⟨handle, ⟨⟩⟩
  · have step := PlainStore.insert_fails there gap refused value
    apply FailsExactly.failed mirrors full
    · rw [step]
      rfl
    · rw [step]
      exact PlainStore.untouched_put there _ _

theorem reserve_exhausted (mirrors : s.Mirrors p) (found : s.lists.find? name = some list)
    (count : Nat) :
    s.FailsExactly (.on name (.reserve .exhausted count)) (.failed .outOfMemory)
      (list.chain.capacity < list.chain.length + count) (· = .returned .done) := by
  rcases mirrors.found found with ⟨plain, there, same⟩
  rw [same.represents.length, same.represents.capacity]
  have step := PlainStore.reserve_ends there .exhausted count
  rcases same.represents.proper.reserve_exhausted count with ⟨room, granted⟩ | ⟨full, shortage, refused⟩
  · simp only [granted] at step
    apply FailsExactly.succeeded mirrors (by omega)
    · rw [step]
      rfl
    · rintro ⟨⟩
  · simp only [refused] at step
    apply FailsExactly.failed mirrors full
    · rw [step]
      rfl
    · rw [step]
      exact PlainStore.untouched_put there _ _

theorem join_exhausted (mirrors : s.Mirrors p) (found : s.lists.find? name = some list)
    (ne : name ≠ source) (found' : s.lists.find? source = some other) :
    s.FailsExactly (.join name source .exhausted) (.failed .outOfMemory)
      (list.chain.capacity < list.chain.length + other.chain.length) (· = .returned .done) := by
  rcases mirrors.found found with ⟨plain, there, same⟩
  rcases mirrors.found found' with ⟨plain', there', same'⟩
  rw [same.represents.length, same.represents.capacity, same'.represents.length]
  have step := PlainStore.join_ends ne there there' .exhausted
  rcases same.represents.proper.reserve_exhausted plain'.roster.entries.length with
    ⟨room, granted⟩ | ⟨full, shortage, refused⟩
  · simp only [granted] at step
    apply FailsExactly.succeeded mirrors (by omega)
    · rw [step]
      rfl
    · rintro ⟨⟩
  · simp only [refused] at step
    apply FailsExactly.failed mirrors full
    · rw [step]
      rfl
    · rw [step]
      exact PlainStore.untouched_put_both there there' _ _

def Replaced (outcome : Outcome α) : Prop :=
  outcome = .returned .done ∨ ∃ panic, outcome = .panicked panic

theorem copy_exhausted (mirrors : s.Mirrors p) {plain : PlainList α} (same : list.Mirrors plain)
    {copy : String} {hook? : Option (DupHook α)}
    (step : p.step op = p.keep copy (plain.duplicateBy .exhausted hook? p.session)) :
    s.FailsExactly op (.failed .outOfMemory) (0 < list.chain.length) Replaced := by
  rw [same.represents.length]
  rcases p.keep_exhausted plain hook? copy with ⟨positive, entry, kept⟩ | ⟨none, made, kept⟩
  · rw [kept] at step
    apply FailsExactly.failed mirrors positive
    · rw [step]
      rfl
    · rw [step]
      exact ⟨fun _ => rfl, rfl, rfl⟩
  · rw [kept] at step
    apply FailsExactly.succeeded mirrors none
    · rw [step]
      exact p.replace_outcome copy made p.session
    · rintro (⟨⟨⟩⟩ | ⟨panic, ⟨⟩⟩)

theorem duplicate_exhausted (mirrors : s.Mirrors p) (found : s.lists.find? name = some list)
    (copy : String) :
    s.FailsExactly (.duplicate name copy .exhausted) (.failed .outOfMemory) (0 < list.chain.length)
      Replaced := by
  rcases mirrors.found found with ⟨plain, there, same⟩
  exact copy_exhausted mirrors same (PlainStore.duplicate_ends there .exhausted)

theorem duplicateWithHook_exhausted (mirrors : s.Mirrors p)
    (found : s.lists.find? name = some list) (installed : list.hooks.dup.isSome) (copy : String) :
    s.FailsExactly (.duplicateWithHook name copy .exhausted) (.failed .outOfMemory)
      (0 < list.chain.length) Replaced := by
  rcases mirrors.found found with ⟨plain, there, same⟩
  rcases Option.isSome_iff_exists.mp installed with ⟨hook, present⟩
  rw [same.hooks] at present
  exact copy_exhausted mirrors same (PlainStore.duplicateWithHook_ends there present .exhausted)

/-- Without memory it is the number of values alone, and not the number of vacant slots, that
    decides what fails; and what fails changes nothing and calls no hook. -/
theorem run_exhausted (ops : List (Op α)) {name : String} {list : HookedList α}
    (found : (Store.empty.run ops).2.lists.find? name = some list) :
    let reached := (Store.empty.run ops).2
    let length := list.chain.length
    let capacity := list.chain.capacity
    (∀ place value, list.chain.Live place →
      reached.FailsExactly (.on name (.insert .exhausted place value))
        (.rejected ⟨.outOfMemory, value⟩) (length = capacity)
        fun outcome => ∃ handle, outcome = .returned (.handle (some handle))) ∧
    (∀ count, reached.FailsExactly (.on name (.reserve .exhausted count)) (.failed .outOfMemory)
      (capacity < length + count) (· = .returned .done)) ∧
    (∀ source other, name ≠ source → reached.lists.find? source = some other →
      reached.FailsExactly (.join name source .exhausted) (.failed .outOfMemory)
        (capacity < length + other.chain.length) (· = .returned .done)) ∧
    (∀ copy, reached.FailsExactly (.duplicate name copy .exhausted) (.failed .outOfMemory)
      (0 < length) Replaced) ∧
    (∀ copy, list.hooks.dup.isSome →
      reached.FailsExactly (.duplicateWithHook name copy .exhausted) (.failed .outOfMemory)
        (0 < length) Replaced) := by
  intro reached length capacity
  have mirrors : reached.Mirrors _ := (run_agrees empty_mirrors ops).2
  refine ⟨?_, ?_, ?_, ?_, ?_⟩
  · intro place value live
    exact insert_exhausted mirrors found live value
  · intro count
    exact reserve_exhausted mirrors found count
  · intro source other ne found'
    exact join_exhausted mirrors found ne found'
  · intro copy
    exact duplicate_exhausted mirrors found copy
  · intro copy installed
    exact duplicateWithHook_exhausted mirrors found installed copy

/-- Four values fill four slots, one of which was vacated and filled again. -/
theorem run_exhausted_when_full :
    let ops : List (Op Value) := [
      .create "a" { dup := some (Value.Copying.policy "dup" .plain) },
      .on "a" (.insert .available .tail (.int 1)),
      .on "a" (.insert .available .head (.int 2)),
      .on "a" (.insert .available .tail (.int 3)),
      .on "a" (.delete 0),
      .on "a" (.insert .available .tail (.int 4)),
      .on "a" (.insert .available (.before 0) (.int 5)),
      .create "b" {},
      .on "b" (.insert .available .tail (.int 6))]
    ∃ reached list other, reached = (Store.empty.run ops).2 ∧
      reached.lists.find? "a" = some list ∧ reached.lists.find? "b" = some other ∧
      (list.chain.length, list.chain.capacity, other.chain.length) = (4, 4, 1) ∧
      (reached.step (.on "a" (.insert .exhausted (.after 2) (.int 7)))).1.outcome =
        .returned (.rejected ⟨.outOfMemory, .int 7⟩) ∧
      (reached.step (.join "a" "b" .exhausted)).1.outcome = .returned (.failed .outOfMemory) ∧
      (reached.step (.duplicateWithHook "a" "c" .exhausted)).1.calls = [] := by
  intro ops
  have first : ((Store.empty.run ops).2.lists.find? "a").map (fun list => (list.chain.length, list.chain.capacity,
      (list.chain.node? 2).isSome, list.hooks.dup.isSome)) = some (4, 4, true, true) := by
    decide +kernel
  have second : ((Store.empty.run ops).2.lists.find? "b").map (·.chain.length) = some 1 := by
    decide +kernel
  rcases Option.map_eq_some_iff.mp first with ⟨list, found, facts⟩
  rcases Option.map_eq_some_iff.mp second with ⟨other, found', counted⟩
  simp only [Prod.mk.injEq] at facts
  rcases facts with ⟨length, capacity, live, installed⟩
  rcases run_exhausted ops found with ⟨insert, -, join, -, copy⟩
  refine ⟨_, list, other, rfl, found, found', by rw [length, capacity, counted], ?_, ?_, ?_⟩
  · have full : list.chain.length = list.chain.capacity := by rw [length, capacity]
    exact (insert (.after 2) (.int 7) live).fails.mpr full
  · have large : list.chain.capacity < list.chain.length + other.chain.length := by omega
    exact (join "b" other (by decide) found').fails.mpr large
  · have positive : 0 < list.chain.length := by omega
    exact ((copy "c" installed).untouched positive).calls

end Store

end LinkedSlots
