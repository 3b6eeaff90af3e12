import LinkedSlots.Errors
import LinkedSlots.Log
import LinkedSlots.Hook.Ledger

namespace LinkedSlots

structure Session (α : Type) where
  ledger : Ledger α
  calls : List (Call α) := []
  log : List LogEntry := []

/-- A computation that a panic can cut short; what happened before the panic stays. -/
abbrev Act (σ β : Type) := EStateM Panic σ β

namespace Session

variable {α ρ : Type}

def noted (s : Session α) (entry : LogEntry) : Session α := { s with log := s.log ++ [entry] }

def note (entry : LogEntry) : Act (Session α) Unit := modify fun s => s.noted entry

def noteShortage (shortage : Shortage) : Act (Session α) ListError := do
  note (.allocationFailed shortage)
  return .ofShortage shortage

def settle : Except String ρ → Act (Session α) ρ
  | .ok reply => return reply
  | .error message => throw (.hook message)

def callDup (hook : DupHook α) (value : α) : Act (Session α) (Option α) := do
  let s ← get
  set { s with
    ledger.dups := s.ledger.dups.record hook.id value
    calls := s.calls ++ [Call.dup hook.id hook.label value] }
  settle (hook.reply (s.ledger.dups.earlier hook.id) value)

def callFree (hook : FreeHook α) (value : α) : Act (Session α) Unit := do
  let s ← get
  set { s with
    ledger.frees := s.ledger.frees.record hook.id value
    calls := s.calls ++ [Call.free hook.id hook.label value] }
  settle (hook.reply (s.ledger.frees.earlier hook.id) value)

def callMatch (hook : MatchHook α) (stored key : α) : Act (Session α) Bool := do
  let s ← get
  set { s with
    ledger.matchings := s.ledger.matchings.record hook.id (stored, key)
    calls := s.calls ++ [Call.matching hook.id hook.label stored key] }
  settle (hook.reply (s.ledger.matchings.earlier hook.id) (stored, key))

end Session

end LinkedSlots
