import LinkedSlots.HookedList.Basic

namespace LinkedSlots.HookedList

variable {α : Type}

def setHooks (policies : PolicySet α) : Act (Workbench α) Unit := modify fun b =>
  let (hooks, ledger) := b.session.ledger.enrollAll policies
  { b with list.hooks := hooks, session.ledger := ledger }

def setDup (policy : Policy α (Option α)) : Act (Workbench α) Unit := modify fun b =>
  let (hook, ledger) := b.session.ledger.enroll policy
  { b with list.hooks.dup := some hook, session.ledger := ledger }

def setFree (policy : Policy α Unit) : Act (Workbench α) Unit := modify fun b =>
  let (hook, ledger) := b.session.ledger.enroll policy
  { b with list.hooks.free := some hook, session.ledger := ledger }

def setMatching (policy : Policy (α × α) Bool) : Act (Workbench α) Unit := modify fun b =>
  let (hook, ledger) := b.session.ledger.enroll policy
  { b with list.hooks.matching := some hook, session.ledger := ledger }

def shareHooks (list other : HookedList α) : HookedList α := { list with hooks := other.hooks }

end LinkedSlots.HookedList
