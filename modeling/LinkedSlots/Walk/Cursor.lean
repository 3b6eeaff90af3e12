import LinkedSlots.Walk.Basic
import LinkedSlots.Chain.Remove

namespace LinkedSlots

/-- A position in a chain: the nodes to be reached next from either side, and how many nodes lie
    between the two sides. -/
structure Cursor where
  front : Option Handle
  back : Option Handle
  remaining : Nat
deriving DecidableEq

namespace Cursor

variable {α : Type}

def takeFront (read : Handle → Except Fault (Node α)) : Edit Cursor (Option Handle) := do
  let cursor ← get
  match cursor.remaining, cursor.front with
  | remaining + 1, some handle =>
    let node ← MonadExcept.ofExcept (read handle)
    set { cursor with front := node.next, remaining := remaining }
    return some handle
  | _, _ => return none

def takeBack (read : Handle → Except Fault (Node α)) : Edit Cursor (Option Handle) := do
  let cursor ← get
  match cursor.remaining, cursor.back with
  | remaining + 1, some handle =>
    let node ← MonadExcept.ofExcept (read handle)
    set { cursor with back := node.prev, remaining := remaining }
    return some handle
  | _, _ => return none

end Cursor

namespace Chain

variable {α : Type}

def cursor (c : Chain α) : Cursor := ⟨c.head, c.tail, c.length⟩

def handleWalk (c : Chain α) : Walk Cursor Handle where
  next := Cursor.takeFront c.node
  nextBack := Cursor.takeBack c.node
  remaining := Cursor.remaining

def valueBehind (c : Chain α) : Option Handle → Edit Cursor (Option α)
  | none => return none
  | some handle => do
    let node ← MonadExcept.ofExcept (c.node handle)
    return some node.value

def valueWalk (c : Chain α) : Walk Cursor α where
  next := do c.valueBehind (← c.handleWalk.next)
  nextBack := do c.valueBehind (← c.handleWalk.nextBack)
  remaining := Cursor.remaining

def reached (c : Chain α) (handle : Handle) : Except Fault (Node α) :=
  match c.node? handle with
  | some node => .ok node
  | none => .error (.brokenWalk handle)

def updateWalk : Walk (Chain α × Cursor × Nat) Handle where
  next := do Edit.second (Edit.first (Cursor.takeFront (← get).1.reached))
  nextBack := do Edit.second (Edit.first (Cursor.takeBack (← get).1.reached))
  remaining := fun (_, cursor, _) => cursor.remaining

def updateVisit (changes : Changes α) (handle : Handle) : Edit (Chain α × Cursor × Nat) α := do
  let (c, cursor, number) ← get
  let node ← MonadExcept.ofExcept (c.reached handle)
  let changed := { node with value := changes.nth number node.value }
  set ({ c with slots := c.slots.setIfInBounds handle (.occupied changed) }, cursor, number + 1)
  return node.value

def takingWalk : Walk (Chain α) α where
  next := popFront
  nextBack := popBack
  remaining := Chain.length

def walkHandles (c : Chain α) (steps : List WalkStep) : Except Fault (List (WalkAnswer Handle)) :=
  Edit.result (c.handleWalk.run pure steps) c.cursor

def walkValues (c : Chain α) (steps : List WalkStep) : Except Fault (List (WalkAnswer α)) :=
  Edit.result (c.valueWalk.run pure steps) c.cursor

def walkUpdating (changes : Changes α) (steps : List WalkStep) :
    Edit (Chain α) (List (WalkAnswer α)) := fun c =>
  match updateWalk.run (updateVisit changes) steps (c, c.cursor, 0) with
  | .ok answers (c, _) => .ok answers c
  | .error cause (c, _) => .error cause c

def walkTaking (steps : List WalkStep) : Edit (Chain α) (List (WalkAnswer α)) :=
  takingWalk.run pure steps

-- Negative positions count from the end, where -1 is the last.
def index (c : Chain α) : Int → Except Fault (Option Handle)
  | .ofNat skipped => Edit.result (Walk.takeNth c.handleWalk.next skipped) c.cursor
  | .negSucc skipped => Edit.result (Walk.takeNth c.handleWalk.nextBack skipped) c.cursor

def handles (c : Chain α) : Except Fault (List Handle) :=
  Edit.result (Walk.takeAll c.handleWalk.next pure c.length) c.cursor

def handlesBack (c : Chain α) : Except Fault (List Handle) :=
  Edit.result (Walk.takeAll c.handleWalk.nextBack pure c.length) c.cursor

def values (c : Chain α) : Except Fault (List α) :=
  Edit.result (Walk.takeAll c.valueWalk.next pure c.length) c.cursor

def entries (c : Chain α) : Except Fault (List (Handle × α)) := do
  (← c.handles).mapM fun handle => do return (handle, (← c.node handle).value)

end Chain

end LinkedSlots
