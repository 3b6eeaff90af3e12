import LinkedSlots.Chain.Basic

namespace LinkedSlots.Chain

variable {α : Type}

/-- Puts a slot on the stack of vacant slots and gives the node that it held. A slot that turns out
    to hold none gets its old link back. -/
def vacate (handle : Handle) : Edit (Chain α) (Node α) := do
  let c ← get
  match c.slots[handle]? with
  | none => throw (.outOfBounds handle c.slots.size)
  | some held =>
    set { c with slots := c.slots.setIfInBounds handle (.vacant c.vacancy) }
    match held with
    | .occupied node =>
      modify fun c => { c with vacancy := some handle }
      return node
    | .vacant below =>
      modify fun c => { c with slots := c.slots.setIfInBounds handle (.vacant below) }
      throw (.vacantSlot handle)

def unlink (handle : Handle) : Edit (Chain α) α := do
  let node ← vacate handle
  linkNext node.prev node.next
  linkPrev node.next node.prev
  let c ← get
  if c.length = 0 then throw .negativeCount
  set { c with length := c.length - 1 }
  return node.value

def popFront : Edit (Chain α) (Option α) := do
  match (← get).head with
  | none => return none
  | some handle => return some (← unlink handle)

def popBack : Edit (Chain α) (Option α) := do
  match (← get).tail with
  | none => return none
  | some handle => return some (← unlink handle)

def reset (c : Chain α) : Chain α := { empty with capacity := c.capacity }

end LinkedSlots.Chain
