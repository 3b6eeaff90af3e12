import LinkedSlots.Registry
import LinkedSlots.Hook.Basic

namespace LinkedSlots

abbrev CallBook (ι : Type) := Registry Nat (List ι)

namespace CallBook

variable {ι : Type}

def earlier (book : CallBook ι) (id : Nat) : List ι := (book.find? id).getD []

def record (book : CallBook ι) (id : Nat) (argument : ι) : CallBook ι :=
  book.put id (book.earlier id ++ [argument])

theorem earlier_record (book : CallBook ι) (id : Nat) (argument : ι) :
    (book.record id argument).earlier id = book.earlier id ++ [argument] := by
  show ((book.put id _).find? id).getD [] = _
  rw [Registry.find?_put_self]
  rfl

theorem earlier_record_of_ne (book : CallBook ι) {id other : Nat} (argument : ι) (ne : other ≠ id) :
    (book.record id argument).earlier other = book.earlier other := by
  show ((book.put id _).find? other).getD [] = _
  rw [book.find?_put_of_ne _ ne]
  rfl

end CallBook

structure Ledger (α : Type) where
  enrolled : Nat
  dups : CallBook α
  frees : CallBook α
  matchings : CallBook (α × α)

namespace Ledger

variable {α ι ρ : Type}

def empty : Ledger α := ⟨0, .empty, .empty, .empty⟩

def enroll (ledger : Ledger α) (policy : Policy ι ρ) : Hook ι ρ × Ledger α :=
  ({ policy with id := ledger.enrolled }, { ledger with enrolled := ledger.enrolled + 1 })

def enroll? (ledger : Ledger α) : Option (Policy ι ρ) → Option (Hook ι ρ) × Ledger α
  | none => (none, ledger)
  | some policy => let (hook, ledger) := ledger.enroll policy; (some hook, ledger)

def enrollAll (ledger : Ledger α) (policies : PolicySet α) : HookSet α × Ledger α :=
  let (dup, ledger) := ledger.enroll? policies.dup
  let (free, ledger) := ledger.enroll? policies.free
  let (matching, ledger) := ledger.enroll? policies.matching
  (⟨dup, free, matching⟩, ledger)

end Ledger

inductive Call (α : Type) where
  | dup (id : Nat) (label : String) (value : α)
  | free (id : Nat) (label : String) (value : α)
  | matching (id : Nat) (label : String) (stored key : α)
deriving DecidableEq

end LinkedSlots
