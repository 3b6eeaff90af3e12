import LinkedSlots.Fault

namespace LinkedSlots

structure Node (α : Type) where
  value : α
  prev : Option Handle
  next : Option Handle
deriving DecidableEq

/-- A slot holds a node, or lies on the stack of vacant slots, right above the slot it names. -/
inductive Slot (α : Type) where
  | occupied (node : Node α)
  | vacant (below : Option Handle)
deriving DecidableEq

/-- A doubly linked chain of values. The nodes live in numbered slots and point at each other by
    slot number; the slots that hold no node form a stack whose top is `vacancy`. Up to
    `capacity` slots fit before the storage has to grow. -/
structure Chain (α : Type) where
  slots : Array (Slot α)
  vacancy : Option Handle
  head : Option Handle
  tail : Option Handle
  length : Nat
  capacity : Nat
deriving DecidableEq

namespace Chain

variable {α : Type}

def empty : Chain α := ⟨#[], none, none, none, 0, 0⟩

def node? (c : Chain α) (handle : Handle) : Option (Node α) :=
  match c.slots[handle]? with
  | some (.occupied node) => some node
  | _ => none

def node (c : Chain α) (handle : Handle) : Except Fault (Node α) :=
  match c.slots[handle]? with
  | some (.occupied node) => .ok node
  | some (.vacant _) => .error (.vacantSlot handle)
  | none => .error (.outOfBounds handle c.slots.size)

def modifyNode (handle : Handle) (change : Node α → Node α) : Edit (Chain α) Unit := do
  let c ← get
  let node ← MonadExcept.ofExcept (c.node handle)
  set { c with slots := c.slots.setIfInBounds handle (.occupied (change node)) }

def linkNext (at? next : Option Handle) : Edit (Chain α) Unit :=
  match at? with
  | some handle => modifyNode handle fun node => { node with next := next }
  | none => modify fun c => { c with head := next }

def linkPrev (at? prev : Option Handle) : Edit (Chain α) Unit :=
  match at? with
  | some handle => modifyNode handle fun node => { node with prev := prev }
  | none => modify fun c => { c with tail := prev }

def isEmpty (c : Chain α) : Bool := c.length == 0

def get? (c : Chain α) (handle : Handle) : Option α := (c.node? handle).map (·.value)

def next? (c : Chain α) (handle : Handle) : Option Handle := (c.node? handle).bind (·.next)

def prev? (c : Chain α) (handle : Handle) : Option Handle := (c.node? handle).bind (·.prev)

def valueAt (c : Chain α) (end? : Option Handle) : Except Fault (Option α) :=
  match end? with
  | none => .ok none
  | some handle => (c.node handle).map fun node => some node.value

def front (c : Chain α) : Except Fault (Option α) := c.valueAt c.head

def back (c : Chain α) : Except Fault (Option α) := c.valueAt c.tail

def updateAt (end? : Option Handle) (change : α → α) : Edit (Chain α) (Option α) :=
  match end? with
  | none => return none
  | some handle => do
    let node ← MonadExcept.ofExcept ((← get).node handle)
    modifyNode handle fun node => { node with value := change node.value }
    return some node.value

def updateFront (change : α → α) : Edit (Chain α) (Option α) := do
  updateAt (← get).head change

def updateBack (change : α → α) : Edit (Chain α) (Option α) := do
  updateAt (← get).tail change

def update (handle : Handle) (change : α → α) : Edit (Chain α) (Option α) := do
  match (← get).node? handle with
  | none => return none
  | some node => do
    modifyNode handle fun node => { node with value := change node.value }
    return some node.value

end Chain

end LinkedSlots
