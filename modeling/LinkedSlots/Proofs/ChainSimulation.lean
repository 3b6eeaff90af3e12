import LinkedSlots.Proofs.PlainList
import LinkedSlots.Proofs.Rotation
import LinkedSlots.Proofs.Simulation

namespace LinkedSlots.Chain

variable {α : Type}

theorem insert_simulates [Stored α] (memory : Memory) (place : Place) (value : α) :
    Simulates Eq Represents (Chain.insert memory place value) (Roster.insert memory place value) := by
  intro c q rep
  unfold Roster.insert
  cases gap : q.gap place with
  | error cause =>
    rw [rep.insert_missing memory place value gap]
    exact ⟨rfl, rep⟩
  | ok halves =>
    rcases halves with ⟨front, back⟩
    have placed := (rep.insert memory place value gap).2
    cases room : q.reserveSlot memory with
    | error shortage =>
      rw [room] at placed
      exact .ok placed rfl rfl rep
    | ok grown =>
      rw [room] at placed
      rcases placed with ⟨c', run, rep'⟩
      exact .ok run rfl rfl rep'

theorem unlink_simulates (handle : Handle) :
    Simulates Eq Represents (Chain.unlink handle) (Roster.unlink handle : Edit (Roster α) α) := by
  intro c q rep
  unfold Roster.unlink
  cases place : locate handle q.entries with
  | none =>
    rw [rep.unlink_missing (locate_eq_none_iff.mp place)]
    exact ⟨rfl, rep⟩
  | some found =>
    rcases found with ⟨front, value, back⟩
    rcases rep.unlink (locate_eq_some place) with ⟨c', run, rep'⟩
    exact .ok run rfl rfl rep'

theorem popFront_simulates :
    Simulates Eq Represents Chain.popFront (Roster.popFront : Edit (Roster α) (Option α)) := by
  intro c q rep
  unfold Roster.popFront
  cases entries : q.entries with
  | nil =>
    rw [rep.popFront_nil entries]
    exact ⟨rfl, rep⟩
  | cons entry back =>
    rcases rep.popFront_cons entries with ⟨c', run, rep'⟩
    exact .ok run rfl rfl rep'

theorem popBack_simulates :
    Simulates Eq Represents Chain.popBack (Roster.popBack : Edit (Roster α) (Option α)) := by
  intro c q rep
  unfold Roster.popBack
  rcases List.eq_nil_or_concat' q.entries with entries | ⟨front, ⟨handle, value⟩, entries⟩
  · rw [rep.popBack_nil entries, entries]
    exact ⟨rfl, rep⟩
  · rcases rep.popBack_concat entries with ⟨c', run, rep'⟩
    have last : q.entries.getLast? = some (handle, value) := by simp [entries]
    have others : q.entries.dropLast = front := by simp [entries]
    rw [last, others]
    exact .ok run rfl rfl rep'

theorem reserve_simulates [Stored α] (memory : Memory) (count : Nat) :
    Simulates Eq Represents (Chain.reserve memory count)
      (Roster.makeRoom memory count : Edit (Roster α) (Except Shortage Unit)) := by
  intro c q rep
  have asked := rep.reserve memory count
  unfold Roster.makeRoom
  cases room : q.reserve memory count with
  | error shortage =>
    rw [room] at asked
    exact .ok asked rfl rfl rep
  | ok grown =>
    rw [room] at asked
    exact .ok asked.1 rfl rfl asked.2

theorem update_simulates (handle : Handle) (change : α → α) :
    Simulates Eq Represents (Chain.update handle change) (modifyGet (Roster.update handle change)) := by
  intro c q rep
  rcases rep.update handle change with ⟨c', run, rep'⟩
  exact .ok run rfl rfl rep'

theorem updateFront_simulates (change : α → α) :
    Simulates Eq Represents (Chain.updateFront change) (modifyGet (Roster.updateFront change)) := by
  intro c q rep
  rcases rep.updateFront change with ⟨c', run, rep'⟩
  exact .ok run rfl rfl rep'

theorem updateBack_simulates (change : α → α) :
    Simulates Eq Represents (Chain.updateBack change) (modifyGet (Roster.updateBack change)) := by
  intro c q rep
  rcases rep.updateBack change with ⟨c', run, rep'⟩
  exact .ok run rfl rfl rep'

theorem rotateTailToHead_simulates :
    Simulates Eq Represents (Chain.rotateTailToHead (α := α)) (modify Roster.rotateTailToHead) := by
  intro c q rep
  rcases rep.rotateTailToHead with ⟨c', run, rep'⟩
  exact .ok run rfl rfl rep'

theorem rotateHeadToTail_simulates :
    Simulates Eq Represents (Chain.rotateHeadToTail (α := α)) (modify Roster.rotateHeadToTail) := by
  intro c q rep
  rcases rep.rotateHeadToTail with ⟨c', run, rep'⟩
  exact .ok run rfl rfl rep'

theorem walkUpdating_simulates (changes : Changes α) (steps : List WalkStep) :
    Simulates Eq Represents (Chain.walkUpdating changes steps)
      (Roster.walkUpdating changes steps) := by
  intro c q rep
  rcases rep.walkUpdating changes steps with ⟨c', run, rep'⟩
  exact .ok run rfl rfl rep'

section Looks

variable {c : Chain α} {q : Roster α}

theorem firstOf_none (entries : List (Handle × α)) :
    firstOf entries none = (entries.map Prod.fst).head? := by
  cases entries <;> rfl

theorem lastOf_none (entries : List (Handle × α)) :
    lastOf none entries = (entries.map Prod.fst).getLast? := by
  rcases List.eq_nil_or_concat' entries with rfl | ⟨front, last, rfl⟩
  · rfl
  · simp

theorem Represents.head_eq (rep : c.Represents q) : c.head = q.handles.head? := by
  rw [rep.head, firstOf_none]
  rfl

theorem Represents.tail_eq (rep : c.Represents q) : c.tail = q.handles.getLast? := by
  rw [rep.tail, lastOf_none]
  rfl

theorem Represents.get?_eq (rep : c.Represents q) (handle : Handle) :
    c.get? handle = q.get? handle := by
  unfold Chain.get? Roster.get?
  rw [rep.node?_eq handle]
  cases locate handle q.entries <;> rfl

theorem Represents.next?_eq (rep : c.Represents q) (handle : Handle) :
    c.next? handle = q.next? handle := by
  unfold Chain.next? Roster.next?
  rw [rep.node?_eq handle]
  cases locate handle q.entries with
  | none => rfl
  | some found =>
    rcases found with ⟨front, value, back⟩
    show firstOf back none = back.head?.map Prod.fst
    rw [firstOf_none, List.head?_map]

theorem Represents.prev?_eq (rep : c.Represents q) (handle : Handle) :
    c.prev? handle = q.prev? handle := by
  unfold Chain.prev? Roster.prev?
  rw [rep.node?_eq handle]
  cases locate handle q.entries with
  | none => rfl
  | some found =>
    rcases found with ⟨front, value, back⟩
    show lastOf none front = front.getLast?.map Prod.fst
    rw [lastOf_none, List.getLast?_map]

theorem Represents.front (rep : c.Represents q) : c.front = .ok q.values.head? := by
  unfold Chain.front
  rw [rep.head]
  cases entries : q.entries with
  | nil => simp [valueAt, Roster.values, entries]
  | cons entry rest =>
    rcases entry with ⟨handle, value⟩
    have split : q.entries = [] ++ (handle, value) :: rest := entries
    have live := rep.node_live split
    simp [valueAt, Roster.values, entries, live, Except.map]

theorem Represents.back (rep : c.Represents q) : c.back = .ok q.values.getLast? := by
  unfold Chain.back
  rw [rep.tail]
  rcases List.eq_nil_or_concat' q.entries with entries | ⟨before, ⟨handle, value⟩, entries⟩
  · simp [valueAt, Roster.values, entries]
  · have live := rep.node_live entries
    simp [valueAt, Roster.values, entries, live, Except.map]

theorem Represents.walkHandles (rep : c.Represents q) (steps : List WalkStep) :
    c.walkHandles steps = .ok (WalkStep.answers steps q.handles) := by
  rcases rep.handleWalk_visits.run steps [] rep.cursor_around with ⟨moved, run, -⟩
  rw [← WalkStep.answers_map] at run
  exact Edit.result_ok run

theorem Represents.walkValues (rep : c.Represents q) (steps : List WalkStep) :
    c.walkValues steps = .ok (WalkStep.answers steps q.values) := by
  rcases rep.valueWalk_visits.run steps [] rep.cursor_around with ⟨moved, run, -⟩
  rw [← WalkStep.answers_map] at run
  exact Edit.result_ok run

theorem Represents.index (rep : c.Represents q) (position : Int) :
    c.index position = .ok (q.index position) := by
  cases position with
  | ofNat skipped =>
    rcases rep.handleWalk_visits.next.nth skipped [] rep.cursor_around with ⟨moved, -, run, -⟩
    rw [← List.getElem?_map] at run
    exact Edit.result_ok run
  | negSucc skipped =>
    have start : Cursor.Around q c.cursor q.entries.reverse.reverse := by
      rw [List.reverse_reverse]
      exact rep.cursor_around
    rcases rep.handleWalk_visits.nextBack.nth skipped [] start with ⟨moved, -, run, -⟩
    rw [← List.getElem?_map, List.map_reverse] at run
    exact Edit.result_ok run

theorem Represents.entries (rep : c.Represents q) : c.entries = .ok q.entries := by
  have behind : ∀ entries : List (Handle × α), (∀ entry ∈ entries, entry ∈ q.entries) →
      (entries.map Prod.fst).mapM (m := Except Fault)
        (fun handle => do return (handle, (← c.node handle).value)) = .ok entries := by
    intro entries among
    induction entries with
    | nil => rfl
    | cons entry rest ih =>
      rcases entry with ⟨handle, value⟩
      rcases List.append_of_mem (among (handle, value) (by simp)) with ⟨before, after, split⟩
      have live := rep.node_live split
      have later := ih fun other member => among other (List.mem_cons_of_mem _ member)
      rw [List.map_cons, List.mapM_cons, later, live]
      rfl
  unfold Chain.entries
  rw [rep.handles]
  exact behind q.entries fun _ member => member

end Looks

end LinkedSlots.Chain
