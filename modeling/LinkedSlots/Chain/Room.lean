import LinkedSlots.Chain.Basic

namespace LinkedSlots

inductive Memory where
  | available
  | exhausted
deriving DecidableEq

inductive Shortage where
  | exhausted
  | tooLarge
deriving DecidableEq

def Shortage.message : Shortage → String
  | .exhausted => "memory allocation failed because the memory allocator returned an error"
  | .tooLarge =>
      "memory allocation failed because the computed capacity exceeded the collection's maximum"

/-- Values that lists can store. Room for `roomLimit` slots of such values is refused, whatever memory
    there is. -/
class Stored (α : Type) where
  roomLimit : Nat
  four_lt_roomLimit : 4 < roomLimit

namespace Chain

variable {α : Type}

def grownCapacity (c : Chain α) (count : Nat) : Nat :=
  max (max (2 * c.capacity) (c.slots.size + count)) 4

variable [Stored α]

def grow (memory : Memory) (count : Nat) : Edit (Chain α) (Except Shortage Unit) := do
  let c ← get
  if c.slots.size + count ≤ c.capacity then
    return .ok ()
  else if Stored.roomLimit α ≤ c.grownCapacity count then
    return .error .tooLarge
  else if memory = .exhausted then
    return .error .exhausted
  else
    set { c with capacity := c.grownCapacity count }
    return .ok ()

def reserve (memory : Memory) (count : Nat) : Edit (Chain α) (Except Shortage Unit) := do
  let c ← get
  if c.slots.size < c.length then throw .negativeCount
  grow memory (count - (c.slots.size - c.length))

def reserveSlot (memory : Memory) : Edit (Chain α) (Except Shortage Unit) := do
  if (← get).vacancy.isSome then return .ok ()
  grow memory 1

end Chain

end LinkedSlots
