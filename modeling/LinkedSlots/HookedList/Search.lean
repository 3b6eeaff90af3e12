import LinkedSlots.HookedList.Basic
import LinkedSlots.Walk.Cursor

namespace LinkedSlots.HookedList

variable {α : Type}

open Workbench

def findEntry (test : α → Act (Session α) Bool) : List (Handle × α) → Act (Session α) (Option Handle)
  | [] => return none
  | (handle, value) :: rest => do
    if ← test value then return some handle
    findEntry test rest

def findBy (test : α → Act (Session α) Bool) : Act (Workbench α) (Option Handle) := do
  let entries ← inspect Chain.entries
  share (findEntry test entries)

def findMatch (hook : MatchHook α) (key : α) : Act (Workbench α) (Option Handle) :=
  findBy fun stored => Session.callMatch hook stored key

def searchWithHook (key : α) : Act (Workbench α) (Option Handle) := do
  match (← get).list.hooks.matching with
  | none => return none
  | some hook => findMatch hook key

def search [BEq α] (key : α) : Act (Workbench α) (Option Handle) := do
  match (← get).list.hooks.matching with
  | none => findBy fun stored => return stored == key
  | some hook => findMatch hook key

end LinkedSlots.HookedList
