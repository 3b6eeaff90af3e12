import LinkedSlots.HookedList.Basic
import LinkedSlots.Walk.Basic
import LinkedSlots.Text.Outline

namespace LinkedSlots

inductive ListOp (α : Type) where
  | length
  | describeHooks
  | setHooks (policies : PolicySet α)
  | setDup (policy : Policy α (Option α))
  | setFree (policy : Policy α Unit)
  | setMatching (policy : Policy (α × α) Bool)
  | reserve (memory : Memory) (count : Nat)
  | insert (memory : Memory) (place : Place) (value : α)
  | delete (handle : Handle)
  | popFront
  | popBack
  | empty
  | front
  | back
  | head
  | tail
  | get (handle : Handle)
  | next (handle : Handle)
  | prev (handle : Handle)
  | index (position : Int)
  | updateFront (change : α → α)
  | updateBack (change : α → α)
  | update (handle : Handle) (change : α → α)
  | rotateTailToHead
  | rotateHeadToTail
  | search (key : α)
  | searchWithHook (key : α)
  | walkHandles (steps : List WalkStep)
  | walkValues (steps : List WalkStep)
  | walkUpdating (changes : Changes α) (steps : List WalkStep)
  | render (layout : Layout)

inductive Op (α : Type) where
  | create (name : String) (policies : PolicySet α)
  | createWithRoom (name : String) (memory : Memory) (count : Nat)
  | on (name : String) (op : ListOp α)
  | shareHooks (name source : String)
  | join (name source : String) (memory : Memory)
  | duplicate (source name : String) (memory : Memory)
  | duplicateWithHook (source name : String) (memory : Memory)
  | walkTaking (name : String) (steps : List WalkStep)
  | release (name : String)
  | drop (name : String)

inductive Answer (α : Type) where
  | done
  | length (count : Nat) (isEmpty : Bool)
  | hooks (dup free matching : Bool) (text : String)
  | value (value? : Option α)
  | handle (handle? : Option Handle)
  | walkedHandles (answers : List (WalkAnswer Handle))
  | walkedValues (answers : List (WalkAnswer α))
  | text (text : String)
  | failed (error : ListError)
  | rejected (error : InsertError α)
deriving DecidableEq

inductive Outcome (α : Type) where
  | returned (answer : Answer α)
  | panicked (panic : Panic)
  | noList
deriving DecidableEq

structure Report (α : Type) where
  outcome : Outcome α
  calls : List (Call α)
  log : List LogEntry
deriving DecidableEq

end LinkedSlots
