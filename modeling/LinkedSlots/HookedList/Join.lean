import LinkedSlots.Chain.Join
import LinkedSlots.HookedList.Basic

namespace LinkedSlots

variable {α β : Type}

def Workbench.editBoth (change : Edit (Chain α × Chain α) β) :
    Act (Workbench α × HookedList α) β := fun (⟨⟨chain, hooks⟩, session⟩, ⟨other, otherHooks⟩) =>
  match change (chain, other) with
  | .ok result (chain, other) => .ok result (⟨⟨chain, hooks⟩, session⟩, ⟨other, otherHooks⟩)
  | .error cause (chain, other) =>
    .error (.fault cause) (⟨⟨chain, hooks⟩, session⟩, ⟨other, otherHooks⟩)

def HookedList.join [Stored α] (memory : Memory) :
    Act (Workbench α × HookedList α) (Except ListError Unit) := do
  match ← Workbench.editBoth (Chain.join memory) with
  | .ok () => return .ok ()
  | .error shortage =>
    modify fun (b, other) => ({ b with session := b.session.noted (.allocationFailed shortage) }, other)
    return .error (.ofShortage shortage)

end LinkedSlots
