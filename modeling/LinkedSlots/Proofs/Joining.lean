import LinkedSlots.Chain.Join
import LinkedSlots.Proofs.Insertion
import LinkedSlots.Proofs.Removal

namespace LinkedSlots

variable {α : Type}

namespace Roster

variable {q grown : Roster α}

theorem values_length (q : Roster α) : q.values.length = q.entries.length := List.length_map _

@[simp] theorem push_length (q : Roster α) (value : α) :
    (q.push value).entries.length = q.entries.length + 1 := by
  simp [Roster.push, putBetween]

@[simp] theorem push_capacity (q : Roster α) (value : α) : (q.push value).capacity = q.capacity := rfl

@[simp] theorem push_values (q : Roster α) (value : α) :
    (q.push value).values = q.values ++ [value] := by
  simp [Roster.push, putBetween, values]

def pushAll (q : Roster α) (values : List α) : Roster α := values.foldl push q

@[simp] theorem pushAll_nil (q : Roster α) : q.pushAll [] = q := rfl

@[simp] theorem pushAll_cons (q : Roster α) (value : α) (values : List α) :
    q.pushAll (value :: values) = (q.push value).pushAll values := rfl

@[simp] theorem pushAll_values (q : Roster α) (values : List α) :
    (q.pushAll values).values = q.values ++ values := by
  induction values generalizing q with
  | nil => simp
  | cons value rest ih => simp [ih]

variable [Stored α]

/-- While fewer values are held than fit, the next one needs no memory. -/
theorem Proper.reserveSlot (proper : q.Proper) (room : q.entries.length < q.capacity)
    (memory : Memory) : q.reserveSlot memory = .ok q := by
  rw [proper.reserveSlot_eq, proper.reserve_enough room]

/-- Vacant slots count as room, so only the number of values matters. -/
theorem Proper.room_of_reserve {memory : Memory} {count : Nat} (proper : q.Proper)
    (granted : q.reserve memory count = .ok grown) :
    grown.Proper ∧ grown.entries.length + count ≤ grown.capacity := by
  have counted := proper.count
  have same := roomier_of_grow granted
  have room := (grow_cases granted).2.2
  refine ⟨⟨?_, ?_⟩, ?_⟩
  · simpa only [handles, same.entries, same.vacant, same.made] using proper.once
  · rw [same.made]
    exact Nat.le_trans proper.fits same.capacity
  · rw [same.entries]
    omega

end Roster

namespace Chain

variable {c d : Chain α} {q p : Roster α} [Stored α]

theorem Represents.addTail (rep : c.Represents q) (room : q.entries.length < q.capacity)
    (memory : Memory) (value : α) :
    ∃ c', Chain.addTail memory value c = .ok (.ok q.fresh) c' ∧ c'.Represents (q.push value) := by
  obtain ⟨-, placed⟩ := rep.insert memory .tail value rfl
  rw [rep.proper.reserveSlot room memory] at placed
  exact placed

/-- Where room was made beforehand, each of the first values of the other chain goes to the back. -/
theorem Represents.moveFront (memory : Memory) (count : Nat) (rep : c.Represents q)
    (other : d.Represents p) (enough : count ≤ p.entries.length)
    (room : q.entries.length + count ≤ q.capacity) :
    ∃ c' d', Chain.moveFront memory count (c, d) = .ok (.ok ()) (c', d') ∧
      c'.Represents (q.pushAll (p.values.take count)) ∧ d'.capacity = d.capacity := by
  induction count generalizing c d q p with
  | zero => exact ⟨c, d, rfl, rep, rfl⟩
  | succ count ih =>
    cases entries : p.entries with
    | nil =>
      rw [entries] at enough
      cases enough
    | cons entry rest =>
      obtain ⟨handle, value⟩ := entry
      rw [entries, List.length_cons] at enough
      -- The room made beforehand lasts for this value and those behind it.
      obtain ⟨d₁, popped, other₁⟩ := other.popFront_cons entries
      obtain ⟨c₁, added, rep₁⟩ := rep.addTail (by omega) memory value
      obtain ⟨c₂, d₂, moved, rep₂, capacity⟩ :=
        ih rep₁ other₁ (by simp [Roster.takeOut]; omega) (by simp; omega)
      refine ⟨c₂, d₂, ?_, ?_, ?_⟩
      · simp [Chain.moveFront, Edit.first, Edit.second, popped, added, moved]
      · simpa [Roster.values, Roster.takeOut, entries] using rep₂
      · rw [capacity, other₁.capacity, other.capacity]
        rfl

/-- A join moves all values or changes nothing. -/
theorem Represents.join (rep : c.Represents q) (other : d.Represents p) (memory : Memory) :
    match q.reserve memory p.entries.length with
    | .error shortage => Chain.join memory (c, d) = .ok (.error shortage) (c, d)
    | .ok grown => ∃ c' d', Chain.join memory (c, d) = .ok (.ok ()) (c', d') ∧
        c'.Represents (grown.pushAll p.values) ∧ d'.Represents p.reset := by
  have asked := rep.reserve memory p.entries.length
  cases outcome : q.reserve memory p.entries.length with
  | error shortage =>
    rw [outcome] at asked
    simp only [Granted] at asked
    simp [Chain.join, other.length, Edit.first, asked]
  | ok grown =>
    rw [outcome] at asked
    obtain ⟨run, rep₁⟩ := asked
    obtain ⟨-, room⟩ := rep.proper.room_of_reserve outcome
    obtain ⟨c₂, d₂, moved, rep₂, capacity⟩ := rep₁.moveFront memory _ other (Nat.le_refl _) room
    rw [← Roster.values_length, List.take_length] at rep₂
    refine ⟨c₂, d₂.reset, ?_, rep₂, ?_⟩
    · simp [Chain.join, other.length, Edit.first, run, moved]
    -- Moving has left vacant slots behind; none of them outlives the reset.
    · have same : d₂.reset = d.reset := by simp only [Chain.reset, capacity]
      rw [same]
      exact other.reset

end Chain

end LinkedSlots
