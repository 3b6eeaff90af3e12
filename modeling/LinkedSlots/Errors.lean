import LinkedSlots.Chain.Room

namespace LinkedSlots

inductive ListError where
  | outOfMemory
  | duplicateFailed
deriving DecidableEq

namespace ListError

def ofShortage : Shortage → ListError := fun _ => .outOfMemory

def name : ListError → String
  | .outOfMemory => "OutOfMemory"
  | .duplicateFailed => "DuplicateFailed"

def message : ListError → String
  | .outOfMemory => "out of memory while allocating list storage"
  | .duplicateFailed => "duplicate hook failed to copy a value"

end ListError

structure InsertError (α : Type) where
  error : ListError
  value : α
deriving DecidableEq

namespace InsertError

variable {α : Type}

def toListError (e : InsertError α) : ListError := e.error

def debugText (e : InsertError α) : String :=
  "InsertError \x7b error: " ++ e.error.name ++ ", .. \x7d"

end InsertError

/-- What cuts an operation short: a fault, a hook's panic, or a second panic while the list of
    the first one is being taken down, which ends everything. -/
inductive Panic where
  | fault (cause : Fault)
  | hook (text : String)
  | abort
deriving DecidableEq

def Panic.message : Panic → String
  | .fault cause => cause.message
  | .hook text => text
  | .abort => "panic while unwinding"

end LinkedSlots
