namespace LinkedSlots

inductive Outline where
  | atom (text : String)
  | members (outlines : List Outline)

namespace Outline

mutual

def compact : Outline → String
  | .atom text => text
  | .members outlines => "[" ++ ", ".intercalate (compactAll outlines) ++ "]"

def compactAll : List Outline → List String
  | [] => []
  | outline :: rest => outline.compact :: compactAll rest

end

def margin (depth : Nat) : String := String.ofList (List.replicate (4 * depth) ' ')

mutual

def pretty (depth : Nat) : Outline → String
  | .atom text => text
  | .members [] => "[]"
  | .members (first :: rest) =>
      "[\n" ++ prettyAll (depth + 1) (first :: rest) ++ margin depth ++ "]"

def prettyAll (depth : Nat) : List Outline → String
  | [] => ""
  | outline :: rest =>
      margin depth ++ outline.pretty depth ++ ",\n" ++ prettyAll depth rest

end

end Outline

class Outlined (α : Type) where
  outline : α → Outline

inductive Layout where
  | compact
  | pretty
deriving DecidableEq

def Layout.render {α : Type} [Outlined α] (layout : Layout) (values : List α) : String :=
  let outline := Outline.members (values.map Outlined.outline)
  match layout with
  | .compact => outline.compact
  | .pretty => outline.pretty 0

end LinkedSlots
