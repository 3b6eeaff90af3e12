import LinkedSlots.Chain.Room

namespace LinkedSlots

inductive Place where
  | head
  | tail
  | after (handle : Handle)
  | before (handle : Handle)
deriving DecidableEq

namespace Chain

variable {α : Type}

def fillSlot (node : Node α) : Edit (Chain α) Handle := do
  let c ← get
  match c.vacancy with
  | none =>
    set { c with slots := c.slots.push (.occupied node) }
    return c.slots.size
  | some handle =>
    match c.slots[handle]? with
    | some (.vacant below) =>
      set { c with slots := c.slots.setIfInBounds handle (.occupied node), vacancy := below }
      return handle
    | some (.occupied _) => throw (.occupiedVacancy handle)
    | none => throw (.outOfBounds handle c.slots.size)

variable [Stored α]

def insertBy (memory : Memory) (put : Edit (Chain α) Handle) :
    Edit (Chain α) (Except Shortage Handle) := do
  match ← reserveSlot memory with
  | .error shortage => return .error shortage
  | .ok () =>
    let handle ← put
    modify fun c => { c with length := c.length + 1 }
    return .ok handle

def addHead (memory : Memory) (value : α) : Edit (Chain α) (Except Shortage Handle) :=
  insertBy memory do
    let head := (← get).head
    let added ← fillSlot ⟨value, none, head⟩
    linkPrev head (some added)
    modify fun c => { c with head := some added }
    return added

def addTail (memory : Memory) (value : α) : Edit (Chain α) (Except Shortage Handle) :=
  insertBy memory do
    let tail := (← get).tail
    let added ← fillSlot ⟨value, tail, none⟩
    linkNext tail (some added)
    modify fun c => { c with tail := some added }
    return added

/-- The handle is looked up before any storage is asked for. -/
def insertAfter (memory : Memory) (handle : Handle) (value : α) :
    Edit (Chain α) (Except Shortage Handle) := do
  let next := (← MonadExcept.ofExcept ((← get).node handle)).next
  insertBy memory do
    let added ← fillSlot ⟨value, some handle, next⟩
    modifyNode handle fun node => { node with next := some added }
    linkPrev next (some added)
    return added

def insertBefore (memory : Memory) (handle : Handle) (value : α) :
    Edit (Chain α) (Except Shortage Handle) := do
  let prev := (← MonadExcept.ofExcept ((← get).node handle)).prev
  insertBy memory do
    let added ← fillSlot ⟨value, prev, some handle⟩
    modifyNode handle fun node => { node with prev := some added }
    linkNext prev (some added)
    return added

def insert (memory : Memory) (place : Place) (value : α) :
    Edit (Chain α) (Except Shortage Handle) :=
  match place with
  | .head => addHead memory value
  | .tail => addTail memory value
  | .after handle => insertAfter memory handle value
  | .before handle => insertBefore memory handle value

end Chain

end LinkedSlots
