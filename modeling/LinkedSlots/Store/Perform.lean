import LinkedSlots.Store.Op
import LinkedSlots.Chain.Rotate
import LinkedSlots.HookedList.Clear
import LinkedSlots.HookedList.Hooks
import LinkedSlots.HookedList.Search

namespace LinkedSlots

variable {α : Type}

namespace Answer

def ofReserve : Except ListError Unit → Answer α
  | .ok () => .done
  | .error error => .failed error

def ofInsert : Except (InsertError α) Handle → Answer α
  | .ok placed => .handle (some placed)
  | .error error => .rejected error

end Answer

namespace Workbench

def perform [BEq α] [Outlined α] [Stored α] : ListOp α → Act (Workbench α) (Answer α)
  | .length => do
    let c := (← get).list.chain
    return .length c.length c.isEmpty
  | .describeHooks => do
    let hooks := (← get).list.hooks
    return .hooks hooks.dup.isSome hooks.free.isSome hooks.matching.isSome hooks.debugText
  | .setHooks policies => do
    HookedList.setHooks policies
    return .done
  | .setDup policy => do
    HookedList.setDup policy
    return .done
  | .setFree policy => do
    HookedList.setFree policy
    return .done
  | .setMatching policy => do
    HookedList.setMatching policy
    return .done
  | .reserve memory count => return .ofReserve (← HookedList.reserve memory count)
  | .insert memory place value => return .ofInsert (← HookedList.insert memory place value)
  | .delete handle => return .value (← HookedList.delete handle)
  | .popFront => return .value (← edit Chain.popFront)
  | .popBack => return .value (← edit Chain.popBack)
  | .empty => do
    HookedList.empty
    return .done
  | .front => return .value (← inspect Chain.front)
  | .back => return .value (← inspect Chain.back)
  | .head => return .handle (← get).list.chain.head
  | .tail => return .handle (← get).list.chain.tail
  | .get handle => return .value ((← get).list.chain.get? handle)
  | .next handle => return .handle ((← get).list.chain.next? handle)
  | .prev handle => return .handle ((← get).list.chain.prev? handle)
  | .index position => return .handle (← inspect (Chain.index · position))
  | .updateFront change => return .value (← edit (Chain.updateFront change))
  | .updateBack change => return .value (← edit (Chain.updateBack change))
  | .update handle change => return .value (← edit (Chain.update handle change))
  | .rotateTailToHead => do
    edit Chain.rotateTailToHead
    return .done
  | .rotateHeadToTail => do
    edit Chain.rotateHeadToTail
    return .done
  | .search key => return .handle (← HookedList.search key)
  | .searchWithHook key => return .handle (← HookedList.searchWithHook key)
  | .walkHandles steps => return .walkedHandles (← inspect (Chain.walkHandles · steps))
  | .walkValues steps => return .walkedValues (← inspect (Chain.walkValues · steps))
  | .walkUpdating changes steps => return .walkedValues (← edit (Chain.walkUpdating changes steps))
  | .render layout => return .text (layout.render (← inspect Chain.values))

end Workbench

end LinkedSlots
