import LinkedSlots.Proofs.Represents

namespace LinkedSlots

variable {α : Type}

structure Roster.Roomier (q grown : Roster α) : Prop where
  entries : grown.entries = q.entries
  vacant : grown.vacant = q.vacant
  made : grown.made = q.made
  capacity : q.capacity ≤ grown.capacity

theorem Roster.Roomier.refl (q : Roster α) : q.Roomier q := ⟨rfl, rfl, rfl, Nat.le_refl _⟩

theorem Chain.Represents.roomier {c : Chain α} {q : Roster α} (rep : c.Represents q)
    {grown : Roster α} (more : q.Roomier grown) :
    Chain.Represents { c with capacity := grown.capacity } grown := by
  obtain ⟨entries, vacant, made, capacity⟩ := grown
  obtain ⟨rfl, rfl, rfl, more⟩ := more
  exact ⟨rep.nodes, rep.vacancies, rep.head, rep.tail, rep.vacancy, rep.length, rep.size, rfl,
    rep.proper.once, Nat.le_trans rep.proper.fits more⟩

variable [Stored α]

theorem Roster.grow_cases {q grown : Roster α} {memory : Memory} {count : Nat}
    (granted : q.grow memory count = .ok grown) :
    grown = { q with capacity := grown.capacity } ∧ q.capacity ≤ grown.capacity ∧
      q.made + count ≤ grown.capacity := by
  simp only [Roster.grow] at granted
  split at granted
  · cases granted
    exact ⟨rfl, Nat.le_refl _, by assumption⟩
  · split at granted
    · cases granted
    · split at granted
      · cases granted
      · cases granted
        refine ⟨rfl, ?_, ?_⟩ <;> simp only [grownCapacity] <;> omega

theorem Roster.roomier_of_grow {q grown : Roster α} {memory : Memory} {count : Nat}
    (granted : q.grow memory count = .ok grown) : q.Roomier grown := by
  obtain ⟨same, more, -⟩ := grow_cases granted
  rw [same]
  exact ⟨rfl, rfl, rfl, more⟩

theorem Roster.values_of_reserve {q grown : Roster α} {memory : Memory} {count : Nat}
    (granted : q.reserve memory count = .ok grown) : grown.values = q.values := by
  unfold values
  rw [(roomier_of_grow granted).entries]

theorem Roster.roomier_of_reserveSlot {q grown : Roster α} {memory : Memory}
    (granted : q.reserveSlot memory = .ok grown) : q.Roomier grown := by
  simp only [Roster.reserveSlot] at granted
  split at granted
  · exact roomier_of_grow granted
  · cases granted
    exact .refl q

theorem Roster.room_of_reserveSlot {q grown : Roster α} {memory : Memory}
    (granted : q.reserveSlot memory = .ok grown) (full : grown.vacant = []) :
    grown.made + 1 ≤ grown.capacity := by
  have same := roomier_of_reserveSlot granted
  rw [same.vacant] at full
  simp only [Roster.reserveSlot, full, if_true] at granted
  rw [same.made]
  exact (grow_cases granted).2.2

/-- Vacant slots count as room, so how room is made depends on the slots only through how many values
    there are. -/
theorem Roster.Proper.reserve_eq {q : Roster α} (proper : q.Proper) (memory : Memory) (count : Nat) :
    q.reserve memory count =
      let wanted := q.entries.length + count
      let grown := max (max (2 * q.capacity) wanted) 4
      if wanted ≤ q.capacity then .ok q
      else if Stored.roomLimit α ≤ grown then .error .tooLarge
      else if memory = .exhausted then .error .exhausted
      else .ok { q with capacity := grown } := by
  have counted := proper.count
  have fits := proper.fits
  unfold Roster.reserve grow grownCapacity
  dsimp only
  by_cases room : q.entries.length + count ≤ q.capacity
  · have enough : q.made + (count - q.vacant.length) ≤ q.capacity := by omega
    rw [if_pos enough, if_pos room]
  · have wanted : q.made + (count - q.vacant.length) = q.entries.length + count := by omega
    rw [wanted]

/-- Where all values fit, more room is not asked for. -/
theorem Roster.Proper.reserve_enough {q : Roster α} (proper : q.Proper) {count : Nat}
    (room : q.entries.length + count ≤ q.capacity) (memory : Memory) :
    q.reserve memory count = .ok q := by
  rw [proper.reserve_eq]
  exact if_pos room

/-- A vacant slot is room for one value. -/
theorem Roster.Proper.reserveSlot_eq {q : Roster α} (proper : q.Proper) (memory : Memory) :
    q.reserveSlot memory = q.reserve memory 1 := by
  unfold Roster.reserveSlot Roster.reserve
  by_cases full : q.vacant = []
  · rw [if_pos full, full]
    rfl
  · have vacancy := List.length_pos_of_ne_nil full
    have nothing : 1 - q.vacant.length = 0 := by omega
    have fits := proper.fits
    rw [if_neg full, nothing]
    simp [Roster.grow, fits]

namespace Chain

variable {c : Chain α} {q : Roster α}

def Granted (run : EStateM.Result Fault (Chain α) (Except Shortage Unit)) (c : Chain α) :
    Except Shortage (Roster α) → Prop
  | .ok grown => run = .ok (.ok ()) { c with capacity := grown.capacity } ∧
      Represents { c with capacity := grown.capacity } grown
  | .error shortage => run = .ok (.error shortage) c

theorem Represents.grow (rep : c.Represents q) (memory : Memory) (count : Nat) :
    Granted (Chain.grow memory count c) c (q.grow memory count) := by
  have size := rep.size
  have capacity := rep.capacity
  have grownCapacity : c.grownCapacity count = q.grownCapacity count := by
    simp only [Chain.grownCapacity, Roster.grownCapacity, size, capacity]
  by_cases room : q.made + count ≤ q.capacity
  · have same : { c with capacity := q.capacity } = c := by rw [← capacity]
    simpa [Chain.grow, Roster.grow, Granted, room, size, capacity, same] using rep
  · by_cases large : Stored.roomLimit α ≤ q.grownCapacity count
    · simp [Chain.grow, Roster.grow, Granted, room, size, capacity, grownCapacity, large]
    · by_cases out : memory = .exhausted
      · simp [Chain.grow, Roster.grow, Granted, room, size, capacity, grownCapacity, large, out]
      · have granted : q.grow memory count = .ok { q with capacity := q.grownCapacity count } := by
          simp [Roster.grow, room, large, out]
        rw [granted]
        refine ⟨?_, rep.roomier (Roster.roomier_of_grow granted)⟩
        simp [Chain.grow, room, size, capacity, grownCapacity, large, out]

theorem Represents.reserve (rep : c.Represents q) (memory : Memory) (count : Nat) :
    Granted (Chain.reserve memory count c) c (q.reserve memory count) := by
  have counted := rep.proper.count
  have vacant : c.slots.size - c.length = q.vacant.length := by
    rw [rep.size, rep.length]
    omega
  have enough : ¬ c.slots.size < c.length := by
    rw [rep.size, rep.length]
    omega
  have grown := rep.grow memory (count - q.vacant.length)
  simpa [Chain.reserve, enough, vacant, Roster.reserve] using grown

theorem Represents.reserveSlot (rep : c.Represents q) (memory : Memory) :
    Granted (Chain.reserveSlot memory c) c (q.reserveSlot memory) := by
  cases vacant : q.vacant with
  | nil =>
    have grown := rep.grow memory 1
    simpa [Chain.reserveSlot, Roster.reserveSlot, rep.vacancy, vacant] using grown
  | cons top rest =>
    have granted : q.reserveSlot memory = .ok q := by simp [Roster.reserveSlot, vacant]
    have same : { c with capacity := q.capacity } = c := by rw [← rep.capacity]
    rw [granted]
    refine ⟨?_, by rwa [same]⟩
    rw [same]
    simp [Chain.reserveSlot, rep.vacancy, vacant]

end Chain

end LinkedSlots
