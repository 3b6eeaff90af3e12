import LinkedSlots.Chain.Insert
import LinkedSlots.Chain.Remove

namespace LinkedSlots.Chain

variable {α : Type} [Stored α]

def moveFront (memory : Memory) : Nat → Edit (Chain α × Chain α) (Except Shortage Unit)
  | 0 => return .ok ()
  | count + 1 => do
    match ← Edit.second popFront with
    | none => return .ok ()
    | some value =>
      match ← Edit.first (addTail memory value) with
      | .error shortage => return .error shortage
      | .ok _ => moveFront memory count

def join (memory : Memory) : Edit (Chain α × Chain α) (Except Shortage Unit) := do
  let count := (← get).2.length
  match ← Edit.first (reserve memory count) with
  | .error shortage => return .error shortage
  | .ok () =>
    match ← moveFront memory count with
    | .error shortage => return .error shortage
    | .ok () =>
      modify fun (c, other) => (c, other.reset)
      return .ok ()

end LinkedSlots.Chain
