import LinkedSlots.Proofs.StoreSettling

namespace LinkedSlots

variable {α : Type}

namespace ListOp

def rewrite (order : List Handle) (handle : Handle) : ListOp α → α → α
  | .updateFront change, value => if order.head? = some handle then change value else value
  | .updateBack change, value => if order.getLast? = some handle then change value else value
  | .update other change, value => if other = handle then change value else value
  | .walkUpdating changes steps, value =>
    changes.make ((WalkStep.answers steps order).flatMap WalkAnswer.given) handle value
  | _, value => value

def removed (order : List Handle) (report : Report α) : ListOp α → List Handle
  | .delete handle => [handle]
  | .popFront => order.head?.toList
  | .popBack => order.getLast?.toList
  | .empty =>
    match report.outcome with
    | .returned _ => order
    | _ => order.take report.calls.length
  | _ => []

def Rotates : ListOp α → Prop
  | .rotateTailToHead => True
  | .rotateHeadToTail => True
  | _ => False

structure Quiet (op : ListOp α) : Prop where
  kept : ∀ order handle value, op.rewrite order handle value = value
  unturned : ¬ op.Rotates

end ListOp

namespace Op

def rewrite (name : String) (order : List Handle) (handle : Handle) : Op α → α → α
  | .on target op, value => if target = name then op.rewrite order handle value else value
  | _, value => value

def removed (name : String) (order : List Handle) (report : Report α) : Op α → List Handle
  | .on target op => if target = name then op.removed order report else []
  | .join _ source _ =>
    match report.outcome with
    | .returned .done => if source = name then order else []
    | _ => []
  | _ => []

def Rotates (name : String) : Op α → Prop
  | .on target op => target = name ∧ op.Rotates
  | _ => False

structure Quiet (name : String) (op : Op α) : Prop where
  kept : ∀ order handle value, op.rewrite name order handle value = value
  unturned : ¬ op.Rotates name

@[simp] theorem rewrite_on (name : String) (op : ListOp α) (order : List Handle) (handle : Handle)
    (value : α) : (on name op).rewrite name order handle value = op.rewrite order handle value :=
  if_pos rfl

@[simp] theorem removed_on (name : String) (op : ListOp α) (order : List Handle) (report : Report α) :
    (on name op).removed name order report = op.removed order report :=
  if_pos rfl

end Op

/-- What an operation with such a report can do to a list that outlives it. -/
inductive Turn [Stored α] (name : String) : Op α → Report α → Roster α → Roster α → Prop
  | still {op report q} (quiet : op.Quiet name) : Turn name op report q q
  | widened {report q grown memory count} (granted : q.reserve memory count = .ok grown) :
    Turn name (.on name (.reserve memory count)) report q grown
  | inserted {report q grown memory place value front back} (gap : q.gap place = .ok (front, back))
      (granted : q.reserveSlot memory = .ok grown)
      (placed : report.outcome = .returned (.handle (some grown.fresh))) :
    Turn name (.on name (.insert memory place value)) report q (grown.putBetween front back value)
  | deleted {report q handle front value back} (entries : q.entries = front ++ (handle, value) :: back) :
    Turn name (.on name (.delete handle)) report q (q.takeOut front handle back)
  | poppedFront {report q handle value back} (entries : q.entries = (handle, value) :: back) :
    Turn name (.on name .popFront) report q (q.takeOut [] handle back)
  | poppedBack {report q handle front value} (entries : q.entries = front ++ [(handle, value)]) :
    Turn name (.on name .popBack) report q (q.takeOut front handle [])
  | emptied {report q} (ended : report.outcome = .returned .done) :
    Turn name (.on name .empty) report q q.reset
  | interrupted {report q panic} (ended : report.outcome = .panicked panic) :
    Turn name (.on name .empty) report q (q.dropFront report.calls.length)
  | rewritten {op report q} (unturned : ¬ op.Rotates) :
    Turn name (.on name op) report q
      (q.withEntries (q.entries.map fun entry => (entry.1, op.rewrite q.handles entry.1 entry.2)))
  | rotatedTail {report q} :
    Turn name (.on name .rotateTailToHead) report q q.rotateTailToHead
  | rotatedHead {report q} :
    Turn name (.on name .rotateHeadToTail) report q q.rotateHeadToTail
  | joined {report q grown source memory} {values : List α}
      (granted : q.reserve memory values.length = .ok grown) :
    Turn name (.join name source memory) report q (grown.pushAll values)
  | forgotten {report q target memory} (ended : report.outcome = .returned .done) :
    Turn name (.join target name memory) report q q.reset

namespace Roster

variable {q : Roster α}

theorem pushAll_capacity (values : List α) : (q.pushAll values).capacity = q.capacity := by
  induction values generalizing q with
  | nil => rfl
  | cons value rest ih => exact ih

/-- Values that go to the back leave the entries in front of them alone. -/
theorem pushAll_entries (values : List α) : q.entries <+: (q.pushAll values).entries := by
  induction values generalizing q with
  | nil => exact List.prefix_refl _
  | cons value rest ih =>
    have first : q.entries <+: (q.push value).entries := List.prefix_append _ _
    exact first.trans ih

theorem rotateTailToHead_entries :
    q.rotateTailToHead.entries = q.entries.getLast?.toList ++ q.entries.dropLast := by
  unfold rotateTailToHead
  rcases List.eq_nil_or_concat' q.entries with entries | ⟨front, last, entries⟩
  · simp [entries]
  · simp [entries, withEntries]

theorem rotateHeadToTail_entries :
    q.rotateHeadToTail.entries = q.entries.tail ++ q.entries.head?.toList := by
  unfold rotateHeadToTail
  cases entries : q.entries with
  | nil => exact entries
  | cons first rest => rfl

theorem mem_takeOut {front back : List (Handle × α)} {handle : Handle} {value : α}
    {entry : Handle × α} (entries : q.entries = front ++ (handle, value) :: back)
    (member : entry ∈ q.entries) (ne : entry.1 ≠ handle) :
    entry ∈ (q.takeOut front handle back).entries := by
  rw [entries] at member
  rcases List.mem_append.mp member with before | behind
  · exact List.mem_append_left _ before
  · rcases List.mem_cons.mp behind with rfl | behind
    · exact (ne rfl).elim
    · exact List.mem_append_right _ behind

/-- Taking an entry out keeps the others in order. -/
theorem sublist_takeOut {front back : List (Handle × α)} {handle : Handle} {value : α}
    (entries : q.entries = front ++ (handle, value) :: back) :
    (q.handles.filter (· ∉ [handle])).Sublist (q.takeOut front handle back).handles := by
  unfold handles takeOut
  rw [entries]
  simp only [List.map_append, List.map_cons, List.filter_append]
  apply List.filter_sublist.append
  rw [List.filter_cons_of_neg (by simp)]
  exact List.filter_sublist

theorem filter_outside (handles : List Handle) : handles.filter (· ∉ handles) = [] := by
  simp [List.filter_eq_nil_iff]

theorem sublist_drop (handles : List Handle) (count : Nat) :
    (handles.filter (· ∉ handles.take count)).Sublist (handles.drop count) := by
  have gone := filter_outside (handles.take count)
  calc
    (handles.filter (· ∉ handles.take count)) =
        (handles.take count ++ handles.drop count).filter (· ∉ handles.take count) := by
      rw [List.take_append_drop]
    _ = (handles.drop count).filter (· ∉ handles.take count) := by
      rw [List.filter_append, gone, List.nil_append]
    List.Sublist _ (handles.drop count) := List.filter_sublist

end Roster

namespace Turn

variable {name : String} {op : Op α} {report : Report α} {q after : Roster α} [Stored α]

theorem capacity_le (turn : Turn name op report q after) : q.capacity ≤ after.capacity := by
  cases turn with
  | still quiet => exact Nat.le_refl _
  | widened granted => exact (Roster.roomier_of_grow granted).capacity
  | inserted gap granted placed => exact (Roster.roomier_of_reserveSlot granted).capacity
  | deleted entries => exact Nat.le_refl _
  | poppedFront entries => exact Nat.le_refl _
  | poppedBack entries => exact Nat.le_refl _
  | emptied ended => exact Nat.le_refl _
  | interrupted ended => exact Nat.le_refl _
  | rewritten unturned => exact Nat.le_refl _
  | rotatedTail =>
    unfold Roster.rotateTailToHead
    cases q.entries.getLast? <;> exact Nat.le_refl _
  | rotatedHead =>
    unfold Roster.rotateHeadToTail
    cases q.entries <;> exact Nat.le_refl _
  | joined granted =>
    rw [Roster.pushAll_capacity]
    exact (Roster.roomier_of_grow granted).capacity
  | forgotten ended => exact Nat.le_refl _

/-- An entry whose node stays keeps its handle, and its value but for what the operation makes of
    it. -/
theorem entry_kept (turn : Turn name op report q after) {handle : Handle} {value : α}
    (member : (handle, value) ∈ q.entries) (stays : handle ∉ op.removed name q.handles report) :
    (handle, op.rewrite name q.handles handle value) ∈ after.entries := by
  cases turn with
  | still quiet =>
    rw [quiet.kept]
    exact member
  | widened granted =>
    rw [(Roster.roomier_of_grow granted).entries, Op.rewrite_on]
    exact member
  | inserted gap granted placed =>
    rw [Roster.entries_gap gap] at member
    rw [Op.rewrite_on]
    exact (List.mem_append.mp member).elim (List.mem_append_left _)
      fun behind => List.mem_append_right _ (List.mem_cons_of_mem _ behind)
  | deleted entries =>
    rw [Op.removed_on] at stays
    rw [Op.rewrite_on]
    exact Roster.mem_takeOut entries member (List.ne_of_not_mem_cons stays)
  | poppedFront entries =>
    rw [Op.removed_on, ListOp.removed, Roster.handles, entries] at stays
    rw [Op.rewrite_on]
    have split : q.entries = [] ++ _ := entries
    exact Roster.mem_takeOut split member (List.ne_of_not_mem_cons stays)
  | poppedBack entries =>
    rw [Op.removed_on, ListOp.removed, Roster.handles, entries, List.map_append,
      List.getLast?_append] at stays
    rw [Op.rewrite_on]
    exact Roster.mem_takeOut entries member (List.ne_of_not_mem_cons stays)
  | emptied ended =>
    rw [Op.removed_on, ListOp.removed, ended] at stays
    exact (stays (List.mem_map_of_mem member)).elim
  | interrupted ended =>
    rw [Op.removed_on, ListOp.removed, ended] at stays
    rw [Op.rewrite_on]
    rw [← List.take_append_drop report.calls.length q.entries] at member
    rcases List.mem_append.mp member with gone | left
    · rw [Roster.handles, ← List.map_take] at stays
      exact (stays (List.mem_map_of_mem gone)).elim
    · exact left
  | rewritten unturned =>
    rw [Op.rewrite_on]
    exact List.mem_map_of_mem member
  | rotatedTail =>
    rw [Op.rewrite_on, Roster.rotateTailToHead_entries]
    rcases List.eq_nil_or_concat' q.entries with entries | ⟨front, last, entries⟩
    · rw [entries] at member
      cases member
    · rw [entries] at member ⊢
      simpa [ListOp.rewrite, or_comm] using member
  | rotatedHead =>
    rw [Op.rewrite_on, Roster.rotateHeadToTail_entries]
    cases entries : q.entries with
    | nil =>
      rw [entries] at member
      cases member
    | cons first rest =>
      rw [entries] at member
      simpa [ListOp.rewrite, or_comm] using member
  | joined granted =>
    have same := (Roster.roomier_of_grow granted).entries
    rw [← same] at member
    exact (Roster.pushAll_entries _).subset member
  | forgotten ended =>
    rw [Op.removed, ended] at stays
    simp only [if_true] at stays
    exact (stays (List.mem_map_of_mem member)).elim

/-- Nodes that stay keep their order, but for rotations. -/
theorem order_kept (turn : Turn name op report q after) (unturned : ¬ op.Rotates name) :
    (q.handles.filter (· ∉ op.removed name q.handles report)).Sublist after.handles := by
  cases turn with
  | still quiet => exact List.filter_sublist
  | widened granted =>
    rw [Roster.handles, Roster.handles, (Roster.roomier_of_grow granted).entries]
    exact List.filter_sublist
  | inserted gap granted placed =>
    apply List.filter_sublist.trans
    rw [Roster.handles, Roster.entries_gap gap]
    apply List.Sublist.map
    exact List.Sublist.append (List.Sublist.refl _) (List.sublist_cons_self _ _)
  | deleted entries =>
    rw [Op.removed_on]
    exact Roster.sublist_takeOut entries
  | poppedFront entries =>
    have split : q.entries = [] ++ _ := entries
    have sublist := Roster.sublist_takeOut split
    rw [Op.removed_on, ListOp.removed]
    simpa [Roster.handles, entries] using sublist
  | poppedBack entries =>
    have sublist := Roster.sublist_takeOut entries
    rw [Op.removed_on, ListOp.removed]
    simpa [Roster.handles, entries] using sublist
  | emptied ended =>
    rw [Op.removed_on, ListOp.removed, ended]
    dsimp only
    rw [Roster.filter_outside]
    exact List.nil_sublist _
  | interrupted ended =>
    rw [Op.removed_on, ListOp.removed, ended]
    have left : (q.dropFront report.calls.length).handles = q.handles.drop report.calls.length :=
      List.map_drop
    rw [left]
    exact Roster.sublist_drop _ _
  | rewritten unturned =>
    unfold Roster.handles Roster.withEntries
    rw [List.map_map]
    exact List.filter_sublist
  | rotatedTail => exact (unturned ⟨rfl, trivial⟩).elim
  | rotatedHead => exact (unturned ⟨rfl, trivial⟩).elim
  | joined granted =>
    apply List.filter_sublist.trans
    have same := (Roster.roomier_of_grow granted).entries
    rw [Roster.handles, ← same]
    exact (Roster.pushAll_entries _).sublist.map _
  | forgotten ended =>
    rw [Op.removed, ended]
    simp only [if_true]
    rw [Roster.filter_outside]
    exact List.nil_sublist _

theorem order_rotatedTail (turn : Turn name (.on name .rotateTailToHead) report q after) :
    after.handles = q.handles.getLast?.toList ++ q.handles.dropLast := by
  cases turn with
  | still quiet => exact (quiet.unturned ⟨rfl, trivial⟩).elim
  | rewritten unturned => exact (unturned trivial).elim
  | rotatedTail =>
    unfold Roster.handles
    rw [Roster.rotateTailToHead_entries, List.map_append, List.getLast?_map, List.map_dropLast]
    cases q.entries.getLast? <;> rfl

theorem order_rotatedHead (turn : Turn name (.on name .rotateHeadToTail) report q after) :
    after.handles = q.handles.tail ++ q.handles.head?.toList := by
  cases turn with
  | still quiet => exact (quiet.unturned ⟨rfl, trivial⟩).elim
  | rewritten unturned => exact (unturned trivial).elim
  | rotatedHead =>
    unfold Roster.handles
    rw [Roster.rotateHeadToTail_entries, List.map_append, List.head?_map, List.map_tail]
    cases q.entries.head? <;> rfl

end Turn

end LinkedSlots
