import LinkedSlots.HookedList.Clear
import LinkedSlots.Walk.Cursor

namespace LinkedSlots.HookedList

variable {α : Type}

open Workbench

def copyValue : Option (DupHook α) → α → Act (Session α) (Option α)
  | none, value => return some value
  | some hook, value => Session.callDup hook value

variable [Stored α]

def appendCopies (memory : Memory) (hook : Option (DupHook α)) :
    List α → Act (Workbench α) (Except ListError Unit)
  | [] => return .ok ()
  | value :: rest => do
    match ← share (copyValue hook value) with
    | none =>
      share (Session.note (.dupFailed (← get).list.chain.length))
      return .error .duplicateFailed
    | some copied =>
      match ← insert memory .tail copied with
      | .error e => return .error e.error
      | .ok _ => appendCopies memory hook rest

def fillCopy (memory : Memory) (hook : Option (DupHook α)) (values : List α) :
    Act (Workbench α) (Except ListError Unit) := do
  match ← reserve memory values.length with
  | .error e => return .error e
  | .ok () => appendCopies memory hook values

def duplicateBy (memory : Memory) (hook : Option (DupHook α)) (list : HookedList α) :
    Act (Session α) (Except ListError (HookedList α)) := fun session =>
  match list.chain.values with
  | .error cause => .error (.fault cause) session
  | .ok values =>
    match fillCopy memory hook values ⟨.ofHooks list.hooks, session⟩ with
    | .ok (.ok ()) b => .ok (.ok b.list) b.session
    | .ok (.error e) b => (do drop b.list; return .error e : Act (Session α) _) b.session
    | .error panic b =>
      (do dropUnwinding b.list; throw panic : Act (Session α) _) b.session

def duplicate (memory : Memory) (list : HookedList α) :
    Act (Session α) (Except ListError (HookedList α)) :=
  duplicateBy memory list.hooks.dup list

def duplicateWithHook (memory : Memory) (list : HookedList α) :
    Act (Session α) (Except ListError (HookedList α)) :=
  match list.hooks.dup with
  | none => do
    Session.note .noDupHook
    return .error .duplicateFailed
  | some hook => duplicateBy memory (some hook) list

end LinkedSlots.HookedList
