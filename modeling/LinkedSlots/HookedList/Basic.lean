import LinkedSlots.Session
import LinkedSlots.Chain.Insert
import LinkedSlots.Chain.Remove

namespace LinkedSlots

structure HookedList (α : Type) where
  chain : Chain α
  hooks : HookSet α

/-- A list together with the session of the operation that works on it. -/
structure Workbench (α : Type) where
  list : HookedList α
  session : Session α

namespace Workbench

variable {α β : Type}

def edit (change : Edit (Chain α) β) : Act (Workbench α) β := fun ⟨⟨chain, hooks⟩, session⟩ =>
  match change chain with
  | .ok result chain => .ok result ⟨⟨chain, hooks⟩, session⟩
  | .error cause chain => .error (.fault cause) ⟨⟨chain, hooks⟩, session⟩

def inspect (look : Chain α → Except Fault β) : Act (Workbench α) β := fun b =>
  match look b.list.chain with
  | .ok result => .ok result b
  | .error cause => .error (.fault cause) b

def share (act : Act (Session α) β) : Act (Workbench α) β := fun ⟨list, session⟩ =>
  match act session with
  | .ok result session => .ok result ⟨list, session⟩
  | .error panic session => .error panic ⟨list, session⟩

def consume (act : Act (Workbench α) β) (list : HookedList α) : Act (Session α) β := fun session =>
  match act ⟨list, session⟩ with
  | .ok result b => .ok result b.session
  | .error panic b => .error panic b.session

end Workbench

namespace HookedList

variable {α : Type}

open Workbench

def ofHooks (hooks : HookSet α) : HookedList α := ⟨.empty, hooks⟩

section Stored

variable [Stored α]

def reserve (memory : Memory) (count : Nat) : Act (Workbench α) (Except ListError Unit) := do
  match ← edit (Chain.reserve memory count) with
  | .ok () => return .ok ()
  | .error shortage => return .error (← share (Session.noteShortage shortage))

def withRoom (memory : Memory) (count : Nat) :
    Act (Session α) (Except ListError (HookedList α)) := fun session =>
  match reserve memory count ⟨ofHooks {}, session⟩ with
  | .ok (.ok ()) b => .ok (.ok b.list) b.session
  | .ok (.error error) b => .ok (.error error) b.session
  | .error panic b => .error panic b.session

def insert (memory : Memory) (place : Place) (value : α) :
    Act (Workbench α) (Except (InsertError α) Handle) := do
  match ← edit (Chain.insert memory place value) with
  | .ok handle => return .ok handle
  | .error shortage => return .error ⟨← share (Session.noteShortage shortage), value⟩

end Stored

def delete (handle : Handle) : Act (Workbench α) (Option α) := do
  let value ← edit (Chain.unlink handle)
  match (← get).list.hooks.free with
  | none => return some value
  | some hook =>
    share (Session.callFree hook value)
    return none

end HookedList

end LinkedSlots
