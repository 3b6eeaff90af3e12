namespace LinkedSlots

/-- How a hook replies to an argument, given the arguments of all earlier calls of that hook,
    oldest first. A reply may be a panic with a message. -/
structure Policy (ι ρ : Type) where
  label : String
  reply : List ι → ι → Except String ρ

/-- An installed hook. Copies of it share the number `id`, and with it the earlier calls. -/
structure Hook (ι ρ : Type) extends Policy ι ρ where
  id : Nat

abbrev DupHook (α : Type) := Hook α (Option α)

abbrev FreeHook (α : Type) := Hook α Unit

abbrev MatchHook (α : Type) := Hook (α × α) Bool

structure HookSet (α : Type) where
  dup : Option (DupHook α) := none
  free : Option (FreeHook α) := none
  matching : Option (MatchHook α) := none

def HookSet.debugText {α : Type} (hooks : HookSet α) : String :=
  "ListHooks \x7b dup: " ++ toString hooks.dup.isSome ++
    ", free: " ++ toString hooks.free.isSome ++
    ", match: " ++ toString hooks.matching.isSome ++ " \x7d"

structure PolicySet (α : Type) where
  dup : Option (Policy α (Option α)) := none
  free : Option (Policy α Unit) := none
  matching : Option (Policy (α × α) Bool) := none

end LinkedSlots
