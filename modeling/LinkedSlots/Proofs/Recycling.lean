import LinkedSlots.Proofs.Exhaustion
import LinkedSlots.Proofs.Faults
import LinkedSlots.Proofs.Stacking
import Mathlib.Data.List.Infix

namespace LinkedSlots

variable {α : Type}

/-- A handle on the stack keeps those below it as long as no more comes off than lies above it. -/
theorem Stacks.keeps {gained : Nat} {taken above below : List Handle} {handle : Handle}
    {q after : Roster α} (piled : Stacks gained taken q after)
    (vacant : q.vacant = above ++ handle :: below) (within : gained ≤ above.length + taken.length) :
    ∃ now, after.vacant = now ++ handle :: below ∧
      now.length + gained = above.length + taken.length := by
  have stack := piled.vacant
  rw [vacant] at stack
  rcases piled.oneWay with none | none
  · subst none
    refine ⟨taken.reverse ++ above, ?_, ?_⟩
    · rw [stack, List.drop_zero, List.append_assoc]
    · rw [List.length_append, List.length_reverse]
      omega
  · subst none
    refine ⟨above.drop gained, ?_, ?_⟩
    · rw [stack, List.drop_append_of_le_length within]
      rfl
    · rw [List.length_drop]
      exact Nat.sub_add_cancel within

/-- Of values that go to the back, the one that comes as far down the stack as the handle lies gets
    it. -/
theorem Roster.pushAll_mem {q : Roster α} {above below : List Handle} {handle : Handle}
    (vacant : q.vacant = above ++ handle :: below) {values : List α} {value : α}
    (there : values[above.length]? = some value) : (handle, value) ∈ (q.pushAll values).entries := by
  induction above generalizing q values with
  | nil =>
    cases values with
    | nil => cases there
    | cons first rest =>
      cases there
      have top : q.fresh = handle := by simp [fresh, vacant]
      have placed : (handle, value) ∈ (q.push value).entries := by
        rw [← top]
        exact List.mem_append_right _ (List.mem_singleton_self _)
      exact (pushAll_entries rest).subset placed
  | cons top above ih =>
    cases values with
    | nil => cases there
    | cons first rest =>
      have later : (q.push first).vacant = above ++ handle :: below := congrArg List.tail vacant
      exact ih later there

namespace Store

variable {s : Store α} {p : PlainStore α} {name : String} {handle : Handle}
  [BEq α] [Outlined α] [Stored α]

def gains (name : String) (s : Store α) : List (Op α) → Nat
  | [] => 0
  | op :: ops => s.gained name op + (s.step op).2.gains name ops

def losses (name : String) (s : Store α) : List (Op α) → Nat
  | [] => 0
  | op :: ops => (s.taken name op).length + (s.step op).2.losses name ops

theorem Mirrors.run_stacks (mirrors : s.Mirrors p) {plain : PlainList α}
    (there : p.lists.find? name = some plain) {above below : List Handle}
    (vacant : plain.roster.vacant = above ++ handle :: below) (ops : List (Op α))
    (remembers : s.Along (·.Remembers name) ops)
    (within : ∀ before, before <+: ops → s.gains name before ≤ above.length + s.losses name before) :
    ∃ after now, (p.run ops).2.lists.find? name = some after ∧
      after.roster.vacant = now ++ handle :: below ∧
      now.length + s.gains name ops = above.length + s.losses name ops := by
  induction ops generalizing s p plain above with
  | nil => exact ⟨plain, above, there, vacant, rfl⟩
  | cons op ops ih =>
    rcases remembers with ⟨first, later⟩
    rcases mirrors.step_stacks there first with ⟨next, there', piled⟩
    have enough : s.gained name op ≤ above.length + (s.taken name op).length :=
      within [op] (List.prefix_append _ _)
    rcases piled.keeps vacant enough with ⟨between, vacant', balance⟩
    have within' (before : List (Op α)) (front : before <+: ops) :
        (s.step op).2.gains name before ≤ between.length + (s.step op).2.losses name before := by
      have whole := within (op :: before) (List.cons_prefix_cons.mpr ⟨rfl, front⟩)
      simp only [gains, losses] at whole
      omega
    rcases ih (step_agrees mirrors op).stores there' vacant' later within' with
      ⟨after, now, there'', vacant'', balance'⟩
    refine ⟨after, now, there'', vacant'', ?_⟩
    simp only [gains, losses]
    omega

inductive Removes (s : Store α) (name : String) (handle : Handle) : Op α → Prop
  | delete (live : handle ∈ s.order name) : s.Removes name handle (.on name (.delete handle))
  | popFront (first : (s.order name).head? = some handle) : s.Removes name handle (.on name .popFront)
  | popBack (last : (s.order name).getLast? = some handle) : s.Removes name handle (.on name .popBack)

/-- No node has this handle, and whatever is asked of it comes to nothing. -/
structure Vacant (s : Store α) (name : String) (handle : Handle) : Prop where
  slot : ∃ list handles below, s.lists.find? name = some list ∧ list.chain.handles = .ok handles ∧
    handle ∉ handles ∧ list.chain.slots[handle]? = some (.vacant below)
  get : s.step (.on name (.get handle)) = (⟨.returned (.value none), [], []⟩, s)
  update : ∀ change, s.step (.on name (.update handle change)) = (⟨.returned (.value none), [], []⟩, s)
  next : s.step (.on name (.next handle)) = (⟨.returned (.handle none), [], []⟩, s)
  prev : s.step (.on name (.prev handle)) = (⟨.returned (.handle none), [], []⟩, s)
  delete : s.step (.on name (.delete handle)) =
    (⟨.panicked (.fault (.vacantSlot handle)), [], []⟩, s)
  insert : ∀ memory place value, place.beside? = some handle →
    s.step (.on name (.insert memory place value)) =
      (⟨.panicked (.fault (.vacantSlot handle)), [], []⟩, s)

structure Returns (s : Store α) (name : String) (handle : Handle) (above : Nat) : Prop where
  inserted : above = 0 → ∀ list memory place value, s.lists.find? name = some list →
    list.chain.Live place →
      (s.step (.on name (.insert memory place value))).1.outcome = .returned (.handle (some handle))
  given : above = 0 → ∀ memory place value other,
    (s.step (.on name (.insert memory place value))).1.outcome = .returned (.handle (some other)) →
      other = handle
  joined : ∀ source memory other values value, s.lists.find? source = some other →
    other.chain.values = .ok values → values[above]? = some value →
    (s.step (.join name source memory)).1.outcome = .returned .done →
      ∃ after, (s.step (.join name source memory)).2.lists.find? name = some after ∧
        after.chain.get? handle = some value

omit [BEq α] [Outlined α] [Stored α] in
theorem present_of_order (live : handle ∈ s.order name) : ∃ list, s.lists.find? name = some list := by
  cases found : s.lists.find? name with
  | none =>
    rw [order, found] at live
    cases live
  | some list => exact ⟨list, rfl⟩

omit [BEq α] [Outlined α] [Stored α] in
/-- A removal takes out this one node, and the list remembers it. -/
theorem Removes.inverts {op : Op α} (removes : s.Removes name handle op) :
    handle ∈ s.order name ∧ ∃ listOp, op = .on name listOp ∧ ∀ report : Report α,
      listOp.gained report = 0 ∧ listOp.removed (s.order name) report = [handle] ∧
        ¬ (Op.on name listOp).Forgets name report := by
  cases removes with
  | delete live => exact ⟨live, _, rfl, fun report => ⟨rfl, rfl, Op.not_forgets rfl report⟩⟩
  | popFront first =>
    refine ⟨List.mem_of_mem_head? first, _, rfl, fun report => ⟨rfl, ?_, Op.not_forgets rfl report⟩⟩
    rw [ListOp.removed, first]
    rfl
  | popBack last =>
    refine ⟨List.mem_of_getLast? last, _, rfl, fun report => ⟨rfl, ?_, Op.not_forgets rfl report⟩⟩
    rw [ListOp.removed, last]
    rfl

theorem Mirrors.removes (mirrors : s.Mirrors p) {op : Op α} (removes : s.Removes name handle op) :
    ∃ after below, (p.step op).2.lists.find? name = some after ∧
      after.roster.vacant = handle :: below := by
  rcases removes.inverts with ⟨live, listOp, rfl, alone⟩
  rcases present_of_order live with ⟨list, found⟩
  rcases mirrors.found found with ⟨plain, there, same⟩
  rcases alone (s.step (.on name listOp)).1 with ⟨none, removed, keeps⟩
  rcases mirrors.step_stacks there ⟨id, keeps⟩ with ⟨after, there', piled⟩
  have stack := piled.vacant
  rw [mirrors.order_eq there] at live removed
  unfold gained taken at stack
  rw [mirrors.order_eq there, Op.taken_on, Op.gained_on, none,
    ListOp.taken_one same.represents.proper live removed] at stack
  exact ⟨after, plain.roster.vacant, there', stack⟩

theorem Mirrors.vacant (mirrors : s.Mirrors p) (sorted : p.lists.Sorted) {plain : PlainList α}
    (there : p.lists.find? name = some plain) (dead : handle ∈ plain.roster.vacant) :
    s.Vacant name handle := by
  rcases mirrors.mirrored there with ⟨list, found, same⟩
  have proper := same.represents.proper
  have outside : handle ∉ plain.roster.handles := fun live => proper.apart live dead
  have absent := locate_eq_none_iff.mpr outside
  have missing : plain.roster.missing handle = .vacantSlot handle :=
    if_pos ((proper.made_iff handle).mpr (.inr dead))
  have looks {op : ListOp α} {answer : Answer α}
      (same : PlainBench.perform op ⟨plain, p.session⟩ = .ok answer ⟨plain, p.session⟩) :
      s.step (.on name op) = (⟨.returned answer, [], []⟩, s) :=
    mirrors.step_back (PlainStore.step_looks sorted there same)
  have panics {op : ListOp α} (needs : op.needs? = some handle) :
      s.step (.on name op) = (⟨.panicked (.fault (.vacantSlot handle)), [], []⟩, s) := by
    apply mirrors.step_back
    rw [← missing]
    exact PlainStore.step_misled sorted ⟨name, op, plain, handle, rfl, needs, there, outside, rfl⟩
  rcases same.represents.vacancies.lookup dead with ⟨below, slot⟩
  constructor
  case slot => exact ⟨list, _, below, found, same.represents.handles, outside, slot⟩
  case get =>
    apply looks
    show EStateM.Result.ok (Answer.value (plain.roster.get? handle)) _ = _
    rw [Roster.get?, absent]
    rfl
  case update =>
    intro change
    apply looks
    show EStateM.Result.ok (Answer.value (plain.roster.update handle change).1)
      (PlainBench.mk ⟨(plain.roster.update handle change).2, plain.hooks⟩ p.session) = _
    rw [Roster.update, absent]
  case next =>
    apply looks
    show EStateM.Result.ok (Answer.handle (plain.roster.next? handle)) _ = _
    rw [Roster.next?, absent]
    rfl
  case prev =>
    apply looks
    show EStateM.Result.ok (Answer.handle (plain.roster.prev? handle)) _ = _
    rw [Roster.prev?, absent]
    rfl
  case delete => exact panics rfl
  case insert =>
    intro memory place value beside
    exact panics beside

theorem Mirrors.returns (mirrors : s.Mirrors p) {plain : PlainList α}
    (there : p.lists.find? name = some plain) {above below : List Handle}
    (vacant : plain.roster.vacant = above ++ handle :: below) :
    s.Returns name handle above.length := by
  rcases mirrors.mirrored there with ⟨held, found, same⟩
  have top (none : above.length = 0) : plain.roster.fresh = handle := by
    rw [List.length_eq_zero_iff.mp none] at vacant
    simp [Roster.fresh, vacant]
  have some_vacant : plain.roster.vacant ≠ [] := by simp [vacant]
  constructor
  case inserted =>
    intro none list memory place value found' live
    rw [found] at found'
    cases found'
    rcases same.represents.gap_live live with ⟨front, back, gap⟩
    have granted : plain.roster.reserveSlot memory = .ok plain.roster := if_neg some_vacant
    rw [(step_agrees mirrors _).report, PlainStore.insert_ends there gap granted, ← top none]
    rfl
  case given =>
    intro none memory place value other inserted
    rw [(step_agrees mirrors _).report] at inserted
    rcases PlainStore.insert_inverts inserted with ⟨list, front, back, grown, there', -, granted, rfl, -⟩
    rw [there] at there'
    cases there'
    have more := Roster.roomier_of_reserveSlot granted
    rw [Roster.fresh, more.vacant, more.made]
    exact top none
  case joined =>
    intro source memory other values value found' shown here joined
    rcases mirrors.found found' with ⟨plain', there', same'⟩
    rw [same'.represents.values] at shown
    cases shown
    have agree := step_agrees mirrors (.join name source memory)
    rw [agree.report] at joined
    rcases p.pair_cases name source with refused | ⟨_, _, ne, -⟩
    · have step : p.step (.join name source memory) = p.refuse := refused _
      rw [step] at joined
      cases joined
    · have step := PlainStore.join_ends ne there there' memory
      cases granted : plain.roster.reserve memory plain'.roster.entries.length with
      | error shortage =>
        rw [granted] at step
        rw [step] at joined
        cases joined
      | ok grown =>
        rw [granted] at step
        have left : (p.step (.join name source memory)).2.lists.find? name =
            some ⟨grown.pushAll plain'.roster.values, plain.hooks⟩ := by
          rw [step, PlainStore.conclude_lists, Registry.find?_put_of_ne _ _ ne,
            Registry.find?_put_self]
        rcases agree.stores.mirrored left with ⟨after, found'', same''⟩
        rw [← (Roster.roomier_of_grow granted).vacant] at vacant
        refine ⟨after, found'', ?_⟩
        rw [same''.represents.get?_eq]
        exact same''.represents.proper.get?_of_mem (Roster.pushAll_mem vacant here)

/-- A handle whose node was removed stays vacant as long as no more nodes have come than gone since
    then, and the first node that comes beyond that has it. -/
theorem run_recycles (past : List (Op α)) {name : String} {handle : Handle} {removal : Op α}
    (removes : (Store.empty.run past).2.Removes name handle removal) :
    let start := ((Store.empty.run past).2.step removal).2
    ∀ ops, start.Along (·.Remembers name) ops →
      (∀ before, before <+: ops → start.gains name before ≤ start.losses name before) →
      let reached := (start.run ops).2
      reached.Vacant name handle ∧
        ∀ above, start.losses name ops = start.gains name ops + above →
          reached.Returns name handle above := by
  intro start ops remembers within reached
  have mirrors := (run_agrees (empty_mirrors (α := α)) past).2
  have sorted := PlainStore.run_sorted (p := PlainStore.empty) .nil past
  have mirrors₁ : start.Mirrors _ := (step_agrees mirrors removal).stores
  rcases mirrors.removes removes with ⟨plain, below, there, vacant⟩
  have within' (before : List (Op α)) (front : before <+: ops) :
      start.gains name before ≤ ([] : List Handle).length + start.losses name before := by
    rw [List.length_nil, Nat.zero_add]
    exact within before front
  rcases mirrors₁.run_stacks there vacant ops remembers within' with
    ⟨after, above, there', vacant', balance⟩
  have mirrors₂ : reached.Mirrors _ := (run_agrees mirrors₁ ops).2
  have sorted₂ := PlainStore.run_sorted (PlainStore.step_sorted sorted removal) ops
  have dead : handle ∈ after.roster.vacant := by
    rw [vacant']
    exact List.mem_append_right _ List.mem_cons_self
  refine ⟨mirrors₂.vacant sorted₂ there' dead, ?_⟩
  intro height same
  have level : height = above.length := by
    rw [List.length_nil, Nat.zero_add, same] at balance
    omega
  rw [level]
  exact mirrors₂.returns there' vacant'

/-- The hook panics at the value of node 1. Two more nodes go and two others take their slots, one
    of them by a join; then it is the turn of handle 1. -/
theorem run_recycles_after_panic :
    let past : List (Op Value) := [
      .create "a" { free := some (Value.Freeing.policy "free" (.panicIf (.int 2))) },
      .on "a" (.insert .available .tail (.int 1)),
      .on "a" (.insert .available .tail (.int 2)),
      .on "a" (.insert .available .tail (.int 3)),
      .create "b" {},
      .on "b" (.insert .available .tail (.int 4))]
    let ops : List (Op Value) := [
      .on "a" (.delete 0),
      .on "a" (.insert .exhausted .tail (.int 5)),
      .on "a" (.insert .available (.after 1) (.int 6)),
      .on "a" .popFront,
      .join "a" "b" .exhausted]
    ∃ removed reached, removed = (Store.empty.run past).2.step (.on "a" (.delete 1)) ∧
      ¬ removed.1.outcome.Calm ∧ reached = (removed.2.run ops).2 ∧ reached.Vacant "a" 1 ∧
      (reached.step (.on "a" (.insert .exhausted .head (.int 7)))).1.outcome =
        .returned (.handle (some 1)) := by
  intro past ops
  have removes : (Store.empty.run past).2.Removes "a" 1 (.on "a" (.delete 1)) :=
    .delete (by decide +kernel)
  have remembers : ((Store.empty.run past).2.step (.on "a" (.delete 1))).2.Along
      (·.Remembers "a") ops := by
    decide +kernel
  have balanced : ∀ before ∈ ops.inits,
      ((Store.empty.run past).2.step (.on "a" (.delete 1))).2.gains "a" before ≤
        ((Store.empty.run past).2.step (.on "a" (.delete 1))).2.losses "a" before := by
    decide +kernel
  have recycled := run_recycles past removes ops remembers
    fun before front => balanced before ((List.mem_inits before ops).mpr front)
  have returns := recycled.2 0 (by decide +kernel)
  rcases recycled.1.slot with ⟨list, handles, below, found, -⟩
  refine ⟨_, _, rfl, by decide +kernel, rfl, recycled.1, ?_⟩
  exact returns.inserted rfl list .exhausted .head (.int 7) found trivial

end Store

end LinkedSlots
