namespace LinkedSlots

/-- A node is named by the number of the slot that holds it. -/
abbrev Handle := Nat

inductive Fault where
  | vacantSlot (handle : Handle)
  | outOfBounds (handle size : Nat)
  | occupiedVacancy (handle : Handle)
  | brokenWalk (handle : Handle)
  | negativeCount
deriving DecidableEq

def Fault.message : Fault → String
  | .vacantSlot handle => s!"invalid node handle {handle}"
  | .outOfBounds handle size =>
      s!"index out of bounds: the len is {size} but the index is {handle}"
  | .occupiedVacancy handle => s!"free slot {handle} is occupied"
  | .brokenWalk handle => s!"chain reaches vacant slot {handle}"
  | .negativeCount => "count below zero"

/-- A computation on a state that a fault can stop; the state stays as it was at the fault. -/
abbrev Edit (σ β : Type) := EStateM Fault σ β

namespace Edit

variable {σ τ β : Type}

def first (edit : Edit σ β) : Edit (σ × τ) β := fun (s, t) =>
  match edit s with
  | .ok result s => .ok result (s, t)
  | .error cause s => .error cause (s, t)

def second (edit : Edit τ β) : Edit (σ × τ) β := fun (s, t) =>
  match edit t with
  | .ok result t => .ok result (s, t)
  | .error cause t => .error cause (s, t)

def result (edit : Edit σ β) (s : σ) : Except Fault β :=
  match edit s with
  | .ok result _ => .ok result
  | .error cause _ => .error cause

end Edit

end LinkedSlots
