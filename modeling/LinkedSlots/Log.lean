import LinkedSlots.Chain.Room

namespace LinkedSlots

inductive LogEntry where
  | emptying (count : Nat)
  | releasing (count : Nat)
  | allocationFailed (shortage : Shortage)
  | noDupHook
  | dupFailed (copied : Nat)
deriving DecidableEq

def LogEntry.line : LogEntry → String
  | .emptying count => s!"TRACE emptying list of {count} nodes"
  | .releasing count => s!"TRACE releasing list of {count} nodes"
  | .allocationFailed shortage => "DEBUG list allocation failed: " ++ shortage.message
  | .noDupHook => "DEBUG dup_with_hook called without a dup hook"
  | .dupFailed copied => s!"DEBUG dup hook failed after copying {copied} nodes"

end LinkedSlots
