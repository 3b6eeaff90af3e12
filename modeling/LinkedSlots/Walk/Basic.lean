import LinkedSlots.Chain.Basic

namespace LinkedSlots

inductive WalkStep where
  | next
  | nextBack
  | length
  | sizeHint
  | nth (skipped : Nat)
  | nthBack (skipped : Nat)
  | rest
  | restBack
deriving DecidableEq

inductive WalkAnswer (β : Type) where
  | item (item? : Option β)
  | length (count : Nat)
  | bounds (lower upper : Nat)
  | items (items : List β)
deriving DecidableEq

/-- What becomes of the values that a walk hands out. The first one has the number 0. -/
structure Changes (α : Type) where
  nth : Nat → α → α

instance {α : Type} : Coe (α → α) (Changes α) := ⟨fun change => ⟨fun _ => change⟩⟩

structure Walk (σ ι : Type) where
  next : Edit σ (Option ι)
  nextBack : Edit σ (Option ι)
  remaining : σ → Nat

namespace Walk

variable {σ ι β : Type}

def takeNth (take : Edit σ (Option ι)) : Nat → Edit σ (Option ι)
  | 0 => take
  | skipped + 1 => do
    match ← take with
    | none => return none
    | some _ => takeNth take skipped

def takeAll (take : Edit σ (Option ι)) (visit : ι → Edit σ β) : Nat → Edit σ (List β)
  | 0 => return []
  | count + 1 => do
    match ← take with
    | none => return []
    | some item =>
      let visited ← visit item
      return visited :: (← takeAll take visit count)

def visitItem (visit : ι → Edit σ β) : Option ι → Edit σ (WalkAnswer β)
  | none => return .item none
  | some item => return .item (some (← visit item))

def perform (walk : Walk σ ι) (visit : ι → Edit σ β) : WalkStep → Edit σ (WalkAnswer β)
  | .next => do visitItem visit (← walk.next)
  | .nextBack => do visitItem visit (← walk.nextBack)
  | .length => return .length (walk.remaining (← get))
  | .sizeHint => do
    let count := walk.remaining (← get)
    return .bounds count count
  | .nth skipped => do visitItem visit (← takeNth walk.next skipped)
  | .nthBack skipped => do visitItem visit (← takeNth walk.nextBack skipped)
  | .rest => do return .items (← takeAll walk.next visit (walk.remaining (← get)))
  | .restBack => do return .items (← takeAll walk.nextBack visit (walk.remaining (← get)))

def run (walk : Walk σ ι) (visit : ι → Edit σ β) : List WalkStep → Edit σ (List (WalkAnswer β))
  | [] => return []
  | step :: steps => do
    let answer ← walk.perform visit step
    return answer :: (← walk.run visit steps)

end Walk

end LinkedSlots
