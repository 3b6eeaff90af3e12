import LinkedSlots.Chain.Basic

namespace LinkedSlots.Chain

variable {α : Type}

def rotateTailToHead : Edit (Chain α) Unit := do
  let c ← get
  if c.length ≤ 1 then return ()
  match c.head, c.tail with
  | some head, some tail =>
    let newTail := (← MonadExcept.ofExcept (c.node tail)).prev
    if let some handle := newTail then
      modifyNode handle fun node => { node with next := none }
    modifyNode tail fun node => { node with prev := none, next := some head }
    modifyNode head fun node => { node with prev := some tail }
    modify fun c => { c with head := some tail, tail := newTail }
  | _, _ => return ()

def rotateHeadToTail : Edit (Chain α) Unit := do
  let c ← get
  if c.length ≤ 1 then return ()
  match c.head, c.tail with
  | some head, some tail =>
    let newHead := (← MonadExcept.ofExcept (c.node head)).next
    if let some handle := newHead then
      modifyNode handle fun node => { node with prev := none }
    modifyNode head fun node => { node with prev := some tail, next := none }
    modifyNode tail fun node => { node with next := some head }
    modify fun c => { c with head := newHead, tail := some head }
  | _, _ => return ()

end LinkedSlots.Chain
