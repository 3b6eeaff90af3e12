import LinkedSlots.HookedList.Basic
import LinkedSlots.Walk.Cursor

namespace LinkedSlots.HookedList

variable {α : Type}

open Workbench

def dispose (value : α) : Act (Workbench α) Unit := do
  match (← get).list.hooks.free with
  | none => return ()
  | some hook => share (Session.callFree hook value)

def freeFront : Nat → Act (Workbench α) Unit
  | 0 => return ()
  | count + 1 => do
    match ← edit Chain.popFront with
    | none => return ()
    | some value =>
      -- The node is gone by the time the hook sees its value.
      dispose value
      freeFront count

def clear : Act (Workbench α) Unit := do
  freeFront (← get).list.chain.length
  edit (modify Chain.reset)

def empty : Act (Workbench α) Unit := do
  share (Session.note (.emptying (← get).list.chain.length))
  clear

def clearUnwinding : Act (Workbench α) Unit :=
  tryCatch clear fun _ => throw .abort

/-- Ends a list, with a log entry. After a panic the values that are left still reach the free
    hook. -/
def release : Act (Workbench α) Unit := do
  share (Session.note (.releasing (← get).list.chain.length))
  tryCatch clear fun panic => do
    clearUnwinding
    throw panic

/-- Ends a list, without a log entry. After a panic the values that are left are lost. -/
def drop (list : HookedList α) : Act (Session α) Unit := consume clear list

def dropUnwinding (list : HookedList α) : Act (Session α) Unit := consume clearUnwinding list

def walkTaking (steps : List WalkStep) : Act (Workbench α) (List (WalkAnswer α)) := do
  let answers ← edit (Chain.walkTaking steps)
  -- The hook gets what is left, and nothing that was handed out or passed over.
  clear
  return answers

end LinkedSlots.HookedList
