import LinkedSlots.Chain.Room
import LinkedSlots.Text.Outline
import LinkedSlots.Text.Quoted

namespace LinkedSlots

/-- The values that lists can hold. An odd value differs from every value, itself included. -/
inductive Value where
  | int (n : Int64)
  | text (s : String)
  | array (items : List Value)
  | odd (n : Int64)

namespace Value

mutual

def same : Value → Value → Bool
  | .int m, .int n => m == n
  | .text s, .text t => s == t
  | .array xs, .array ys => sameAll xs ys
  | _, _ => false

def sameAll : List Value → List Value → Bool
  | [], [] => true
  | x :: xs, y :: ys => x.same y && sameAll xs ys
  | _, _ => false

end

instance : BEq Value := ⟨same⟩

mutual

def outline : Value → Outline
  | .int n => .atom (toString n)
  | .text s => .atom (Text.quoted s)
  | .array items => .members (outlines items)
  | .odd n => .atom ("odd(" ++ toString n ++ ")")

def outlines : List Value → List Outline
  | [] => []
  | value :: rest => value.outline :: outlines rest

end

instance : Outlined Value := ⟨outline⟩

-- A slot takes up at most 64 of the 2 ^ 63 bytes that there can be.
instance : Stored Value := ⟨1 <<< 57, by decide⟩

def add (amount : Int64) : Value → Value
  | .int n => .int (n + amount)
  | other => other

def lessThan : Value → Value → Bool
  | .int m, .int n => m < n
  | _, _ => false

def congruent (modulus : Int) : Value → Value → Bool
  | .int m, .int n => m.toInt.emod modulus == n.toInt.emod modulus
  | _, _ => false

def sameIgnoringCase : Value → Value → Bool
  | .text s, .text t => s.map Char.toLower == t.map Char.toLower
  | _, _ => false

end Value

end LinkedSlots
