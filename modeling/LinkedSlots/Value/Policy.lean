import LinkedSlots.Hook.Basic
import LinkedSlots.Value.Basic

namespace LinkedSlots.Value

inductive Copying where
  | plain
  | add (amount : Int64)
  | failIf (value : Value)
  | limit (count : Nat)
  | panicIf (value : Value)

def Copying.reply : Copying → List Value → Value → Except String (Option Value)
  | .plain, _, value => .ok (some value)
  | .add amount, _, value => .ok (some (value.add amount))
  | .failIf refused, _, value => .ok (if value == refused then none else some value)
  | .limit count, earlier, value => .ok (if earlier.length < count then some value else none)
  | .panicIf refused, _, value =>
      if value == refused then .error "dup hook panicked" else .ok (some value)

def Copying.policy (label : String) (copying : Copying) : Policy Value (Option Value) :=
  ⟨label, copying.reply⟩

inductive Freeing where
  | accept
  | panicIf (value : Value)
  | panicOnce (value : Value)
  | panicAt (call : Nat)

def Freeing.refuses : Freeing → List Value → Value → Bool
  | .accept, _, _ => false
  | .panicIf refused, _, value => value == refused
  | .panicOnce refused, earlier, value => value == refused && !earlier.any (· == refused)
  | .panicAt call, earlier, _ => earlier.length == call

def Freeing.policy (label : String) (freeing : Freeing) : Policy Value Unit :=
  ⟨label, fun earlier value =>
    if freeing.refuses earlier value then .error "free hook panicked" else .ok ()⟩

inductive Matching where
  | equal
  | different
  | below
  | congruent (modulus : Int)
  | ignoringCase
  | always
  | never
  | nthCall (call : Nat)
  | panicIf (value : Value)

def Matching.reply : Matching → List (Value × Value) → Value × Value → Except String Bool
  | .equal, _, (stored, key) => .ok (stored == key)
  | .different, _, (stored, key) => .ok (stored != key)
  | .below, _, (stored, key) => .ok (stored.lessThan key)
  | .congruent modulus, _, (stored, key) => .ok (stored.congruent modulus key)
  | .ignoringCase, _, (stored, key) => .ok (stored.sameIgnoringCase key)
  | .always, _, _ => .ok true
  | .never, _, _ => .ok false
  | .nthCall call, earlier, _ => .ok (earlier.length == call)
  | .panicIf refused, _, (stored, key) =>
      if stored == refused then .error "match hook panicked" else .ok (stored == key)

def Matching.policy (label : String) (matching : Matching) : Policy (Value × Value) Bool :=
  ⟨label, matching.reply⟩

end LinkedSlots.Value
