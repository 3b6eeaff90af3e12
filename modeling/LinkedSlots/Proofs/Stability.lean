import LinkedSlots.Proofs.Lasting
import LinkedSlots.Value.Policy

namespace LinkedSlots

variable {α : Type}

theorem Roster.Proper.get?_of_mem {q : Roster α} (proper : q.Proper) {handle : Handle} {value : α}
    (member : (handle, value) ∈ q.entries) : q.get? handle = some value := by
  rcases List.append_of_mem member with ⟨front, back, entries⟩
  have nodup := proper.handles_nodup
  rw [Roster.handles, entries] at nodup
  unfold Roster.get?
  rw [entries, locate_middle (outside_front nodup)]
  rfl

theorem Roster.Proper.get?_eq_some_iff {q : Roster α} (proper : q.Proper) {handle : Handle}
    {value : α} : q.get? handle = some value ↔ (handle, value) ∈ q.entries := by
  constructor
  · intro found
    rcases Option.map_eq_some_iff.mp found with ⟨⟨front, _, back⟩, here, rfl⟩
    rw [locate_eq_some here]
    exact List.mem_append_right front List.mem_cons_self
  · exact proper.get?_of_mem

def HookedList.order (list : HookedList α) : List Handle := list.chain.handles.toOption.getD []

theorem HookedList.Mirrors.order_eq {list : HookedList α} {plain : PlainList α}
    (mirrors : list.Mirrors plain) : list.order = plain.roster.handles := by
  unfold HookedList.order
  rw [mirrors.represents.handles]
  rfl

namespace PlainStore

variable {p : PlainStore α} {name : String} {memory : Memory} {place : Place} {value : α}
  {handle : Handle} [BEq α] [Outlined α] [Stored α]

/-- A handle comes from an insertion that has found its place and room. -/
theorem insert_inverts
    (inserted : (p.step (.on name (.insert memory place value))).1.outcome =
      .returned (.handle (some handle))) :
    ∃ list front back grown, p.lists.find? name = some list ∧
      list.roster.gap place = .ok (front, back) ∧ list.roster.reserveSlot memory = .ok grown ∧
      handle = grown.fresh ∧
      (p.step (.on name (.insert memory place value))).2.lists.find? name =
        some ⟨grown.putBetween front back value, list.hooks⟩ := by
  cases found : p.lists.find? name with
  | none =>
    rw [step_on_absent found] at inserted
    cases inserted
  | some list =>
    rw [step_on found, PlainBench.perform, bind_apply, PlainBench.insert_apply] at inserted ⊢
    cases gap : list.roster.gap place with
    | error cause =>
      rw [gap] at inserted
      cases inserted
    | ok halves =>
      rcases halves with ⟨front, back⟩
      rw [gap] at inserted
      dsimp only at inserted ⊢
      cases granted : list.roster.reserveSlot memory with
      | error shortage =>
        rw [granted] at inserted
        cases inserted
      | ok grown =>
        rw [granted] at inserted
        cases inserted
        exact ⟨list, front, back, grown, rfl, gap, granted, rfl, p.lists.find?_put_self name _⟩

end PlainStore

namespace Store

variable {s : Store α} {p : PlainStore α} {name : String} {handle : Handle} {value : α}

def order (s : Store α) (name : String) : List Handle :=
  ((s.lists.find? name).map HookedList.order).getD []

theorem Mirrors.order_eq (mirrors : s.Mirrors p) {plain : PlainList α}
    (there : p.lists.find? name = some plain) : s.order name = plain.roster.handles := by
  rcases mirrors.mirrored there with ⟨list, found, same⟩
  unfold order
  rw [found]
  exact same.order_eq

variable [BEq α] [Outlined α] [Stored α]

/-- A list that a run has left stands for a plain list of the plain run. -/
theorem run_found (ops : List (Op α)) {list : HookedList α}
    (found : (Store.empty.run ops).2.lists.find? name = some list) :
    ∃ p plain, (Store.empty.run ops).2.Mirrors p ∧ p.lists.Sorted ∧
      p.lists.find? name = some plain ∧ list.Mirrors plain := by
  have mirrors := (run_agrees (empty_mirrors (α := α)) ops).2
  have sorted := PlainStore.run_sorted (p := PlainStore.empty) .nil ops
  rcases mirrors.found found with ⟨plain, there, same⟩
  exact ⟨_, plain, mirrors, sorted, there, same⟩

structure Spares (s : Store α) (name : String) (handle : Handle) (op : Op α) : Prop where
  lasts : ¬ s.Ends name op
  kept : handle ∉ op.removed name (s.order name) (s.step op).1

def written (name : String) (handle : Handle) (s : Store α) (value : α) : List (Op α) → α
  | [] => value
  | op :: ops =>
    (s.step op).2.written name handle (op.rewrite name (s.order name) handle value) ops

/-- The list has the node, once and with this value, and no insertion gives its handle again. -/
def Holds (s : Store α) (name : String) (handle : Handle) (value : α) : Prop :=
  ∃ list handles, s.lists.find? name = some list ∧ list.chain.get? handle = some value ∧
    list.chain.handles = .ok handles ∧ handles.count handle = 1 ∧
    ∀ memory place new, (s.step (.on name (.insert memory place new))).1.outcome ≠
      .returned (.handle (some handle))

theorem Mirrors.holds (mirrors : s.Mirrors p) {plain : PlainList α}
    (there : p.lists.find? name = some plain) (member : (handle, value) ∈ plain.roster.entries) :
    s.Holds name handle value := by
  rcases mirrors.mirrored there with ⟨list, found, same⟩
  have proper := same.represents.proper
  have live : handle ∈ plain.roster.handles := List.mem_map_of_mem member
  refine ⟨list, plain.roster.handles, found, ?_, same.represents.handles, ?_, ?_⟩
  · rw [same.represents.get?_eq]
    exact proper.get?_of_mem member
  · exact List.count_eq_one_of_mem proper.handles_nodup live
  · intro memory place new again
    rw [(step_agrees mirrors _).report] at again
    rcases PlainStore.insert_inverts again with ⟨other, front, back, grown, there', gap, granted, rfl, -⟩
    rw [there] at there'
    cases there'
    have more := Roster.roomier_of_reserveSlot granted
    have fresh : grown.fresh = plain.roster.fresh := by
      unfold Roster.fresh
      rw [more.vacant, more.made]
    rw [fresh] at live
    exact proper.fresh_outside live

/-- The node of an entry keeps its place among the entries, with what is written to it. -/
theorem Mirrors.run_keeps (mirrors : s.Mirrors p) {plain : PlainList α}
    (there : p.lists.find? name = some plain) (member : (handle, value) ∈ plain.roster.entries)
    (ops : List (Op α)) (spared : s.Along (·.Spares name handle) ops) :
    ∃ after, (p.run ops).2.lists.find? name = some after ∧
      (handle, s.written name handle value ops) ∈ after.roster.entries := by
  induction ops generalizing s p plain value with
  | nil => exact ⟨plain, there, member⟩
  | cons op ops ih =>
    rcases spared with ⟨spares, later⟩
    rcases mirrors.lasts there spares.lasts with ⟨next, there', turn⟩
    have kept := spares.kept
    rw [mirrors.order_eq there] at kept
    have member' := turn.entry_kept member kept
    rw [← mirrors.order_eq there] at member'
    exact ih (step_agrees mirrors op).stores there' member' later

structure Reorders (s : Store α) (name : String) (op : Op α) : Prop where
  kept : ¬ op.Rotates name →
    ((s.order name).filter (· ∉ op.removed name (s.order name) (s.step op).1)).Sublist
      ((s.step op).2.order name)
  tailFirst : op = .on name .rotateTailToHead →
    (s.step op).2.order name = (s.order name).getLast?.toList ++ (s.order name).dropLast
  headLast : op = .on name .rotateHeadToTail →
    (s.step op).2.order name = (s.order name).tail ++ (s.order name).head?.toList

theorem Mirrors.reorders (mirrors : s.Mirrors p) {plain : PlainList α}
    (there : p.lists.find? name = some plain) {op : Op α} (lasts : ¬ s.Ends name op) :
    s.Reorders name op := by
  rcases mirrors.lasts there lasts with ⟨after, there', turn⟩
  have before := mirrors.order_eq there
  have now := (step_agrees mirrors op).stores.order_eq there'
  constructor
  · intro unturned
    rw [before, now]
    exact turn.order_kept unturned
  · rintro rfl
    rw [before, now]
    exact turn.order_rotatedTail
  · rintro rfl
    rw [before, now]
    exact turn.order_rotatedHead

/-- The handle that an insertion gives stands for its node until that node leaves the list, and
    nodes that stay keep their order unless the list is rotated. -/
theorem run_stable (past : List (Op α)) :
    let reached := (Store.empty.run past).2
    (∀ name memory place value handle,
      let ended := reached.step (.on name (.insert memory place value))
      ended.1.outcome = .returned (.handle (some handle)) →
      ∀ ops, ended.2.Along (·.Spares name handle) ops →
        (ended.2.run ops).2.Holds name handle (ended.2.written name handle value ops)) ∧
    ∀ name op, (reached.lists.find? name).isSome → ¬ reached.Ends name op →
      reached.Reorders name op := by
  intro reached
  have mirrors : reached.Mirrors _ := (run_agrees empty_mirrors past).2
  constructor
  · intro name memory place value handle ended inserted ops spared
    have agree := step_agrees mirrors (.on name (.insert memory place value))
    rw [agree.report] at inserted
    rcases PlainStore.insert_inverts inserted with ⟨list, front, back, grown, -, -, -, rfl, there⟩
    have member : (grown.fresh, value) ∈ (grown.putBetween front back value).entries :=
      List.mem_append_right front List.mem_cons_self
    rcases agree.stores.run_keeps there member ops spared with ⟨after, there', member'⟩
    exact (run_agrees agree.stores ops).2.holds there' member'
  · intro name op present lasts
    rcases Option.isSome_iff_exists.mp present with ⟨list, found⟩
    rcases mirrors.found found with ⟨plain, there, -⟩
    exact mirrors.reorders there lasts

/-- Around node 1 nodes come and go, until a panic cuts the emptying of the list short. -/
theorem run_stable_amid_changes :
    let past : List (Op Value) := [
      .create "a" { free := some (Value.Freeing.policy "free" (.panicIf (.int 7))) },
      .create "b" {},
      .on "b" (.insert .available .head (.int 7)),
      .on "a" (.insert .available .tail (.int 1))]
    let ended := (Store.empty.run past).2.step (.on "a" (.insert .available .head (.int 2)))
    let ops : List (Op Value) := [
      .on "a" (.insert .available (.before 1) (.int 5)),
      .on "a" (.update 1 fun _ => .int 3),
      .on "a" (.delete 0),
      .join "a" "b" .available,
      .on "a" .rotateTailToHead,
      .on "a" .empty]
    ended.1.outcome = .returned (.handle (some 1)) ∧ (ended.2.run ops).2.Holds "a" 1 (.int 3) ∧
      (ended.2.run ops).2.order "a" = [2, 1] := by
  intro past ended ops
  have inserted : ended.1.outcome = .returned (.handle (some 1)) := rfl
  have spared : ended.2.Along (·.Spares "a" 1) ops :=
    ⟨⟨id, by decide +kernel⟩, ⟨id, by decide +kernel⟩, ⟨id, by decide +kernel⟩,
      ⟨id, by decide +kernel⟩, ⟨id, by decide +kernel⟩, ⟨id, by decide +kernel⟩, trivial⟩
  have value : ended.2.written "a" 1 (.int 2) ops = .int 3 := by
    simp [ops, written, Op.rewrite, ListOp.rewrite]
  have holds := (run_stable past).1 "a" .available .head (.int 2) 1 inserted ops spared
  rw [value] at holds
  exact ⟨inserted, holds, by decide +kernel⟩

end Store

end LinkedSlots
