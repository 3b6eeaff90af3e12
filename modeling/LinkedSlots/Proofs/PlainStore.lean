import LinkedSlots.Proofs.PlainList
import LinkedSlots.Store.Step

namespace LinkedSlots

def HookSet.handOut {α : Type} (hooks : HookSet α) (value : α) :
    ListOp α → Act (Session α) (Answer α)
  | .delete _ =>
    match hooks.free with
    | none => return .value (some value)
    | some hook => do
      Session.callFree hook value
      return .value none
  | _ => return .value (some value)

structure PlainStore (α : Type) where
  lists : Registry String (PlainList α)
  ledger : Ledger α

namespace PlainStore

variable {α : Type}

def empty : PlainStore α := ⟨.empty, .empty⟩

def session (p : PlainStore α) : Session α := { ledger := p.ledger }

def conclude (lists : Registry String (PlainList α)) :
    EStateM.Result Panic (Session α) (Answer α) → Report α × PlainStore α
  | .ok answer session =>
    (⟨.returned answer, session.calls, session.log⟩, ⟨lists, session.ledger⟩)
  | .error panic session =>
    (⟨.panicked panic, session.calls, session.log⟩, ⟨lists, session.ledger⟩)

def refuse (p : PlainStore α) : Report α × PlainStore α := (⟨.noList, [], []⟩, p)

def replace (p : PlainStore α) (name : String) (list : PlainList α) (session : Session α) :
    Report α × PlainStore α :=
  conclude (p.lists.put name list) <|
    match p.lists.find? name with
    | none => .ok .done session
    | some old => (do old.drop; return .done : Act (Session α) (Answer α)) session

def work (p : PlainStore α) (name : String) (act : Act (PlainBench α) (Answer α)) :
    Report α × PlainStore α :=
  match p.lists.find? name with
  | none => p.refuse
  | some list =>
    match act ⟨list, p.session⟩ with
    | .ok answer b => conclude (p.lists.put name b.list) (.ok answer b.session)
    | .error panic b => conclude (p.lists.put name b.list) (.error panic b.session)

def retire (p : PlainStore α) (name : String) (act : PlainList α → Act (Session α) (Answer α)) :
    Report α × PlainStore α :=
  match p.lists.find? name with
  | none => p.refuse
  | some list => conclude (p.lists.erase name) (act list p.session)

def pair (p : PlainStore α) (name source : String)
    (act : PlainList α → PlainList α → Report α × PlainStore α) : Report α × PlainStore α :=
  if name = source then p.refuse
  else
    match p.lists.find? name, p.lists.find? source with
    | some list, some other => act list other
    | _, _ => p.refuse

def shareHooks (p : PlainStore α) (name source : String) : Report α × PlainStore α :=
  p.pair name source fun list other =>
    conclude (p.lists.put name { list with hooks := other.hooks }) (.ok .done p.session)

def join [Stored α] (p : PlainStore α) (memory : Memory) (name source : String) :
    Report α × PlainStore α :=
  p.pair name source fun list other =>
    match PlainBench.join memory (⟨list, p.session⟩, other) with
    | .ok joined (b, other) =>
      conclude ((p.lists.put name b.list).put source other) (.ok (.ofReserve joined) b.session)
    | .error panic (b, other) =>
      conclude ((p.lists.put name b.list).put source other) (.error panic b.session)

def keep (p : PlainStore α) (name : String) :
    EStateM.Result Panic (Session α) (Except ListError (PlainList α)) → Report α × PlainStore α
  | .ok (.ok list) session => p.replace name list session
  | .ok (.error error) session => conclude p.lists (.ok (.failed error) session)
  | .error panic session => conclude p.lists (.error panic session)

def duplicate (p : PlainStore α) (source name : String)
    (copy : PlainList α → Act (Session α) (Except ListError (PlainList α))) :
    Report α × PlainStore α :=
  match p.lists.find? source with
  | none => p.refuse
  | some list => p.keep name (copy list p.session)

variable [BEq α] [Outlined α] [Stored α]

def step (p : PlainStore α) : Op α → Report α × PlainStore α
  | .create name policies =>
    let (hooks, ledger) := p.ledger.enrollAll policies
    p.replace name ⟨.empty, hooks⟩ { ledger := ledger }
  | .createWithRoom name memory count => p.keep name (PlainList.withRoom memory count p.session)
  | .on name op => p.work name (PlainBench.perform op)
  | .shareHooks name source => p.shareHooks name source
  | .join name source memory => p.join memory name source
  | .duplicate source name memory => p.duplicate source name (PlainList.duplicate memory)
  | .duplicateWithHook source name memory =>
    p.duplicate source name (PlainList.duplicateWithHook memory)
  | .walkTaking name steps => p.retire name fun list => do
    return .walkedValues (← list.walkTaking steps)
  | .release name => p.retire name fun list => do
    list.release
    return .done
  | .drop name => p.retire name fun list => do
    list.drop
    return .done

def run (p : PlainStore α) : List (Op α) → List (Report α) × PlainStore α
  | [] => ([], p)
  | op :: ops =>
    let (report, p) := p.step op
    let (reports, p) := p.run ops
    (report :: reports, p)

variable {p : PlainStore α} {name source : String} {list other : PlainList α}

theorem run_cons (p : PlainStore α) (op : Op α) (ops : List (Op α)) :
    p.run (op :: ops) =
      ((p.step op).1 :: ((p.step op).2.run ops).1, ((p.step op).2.run ops).2) := rfl

/-- A first operation that calls no hook and notes nothing. -/
theorem run_quietly {op : Op α} {lists : Registry String (PlainList α)} {answer : Answer α}
    (first : p.step op = conclude lists (.ok answer p.session)) (ops : List (Op α)) :
    p.run (op :: ops) = (⟨.returned answer, [], []⟩ :: ((PlainStore.mk lists p.ledger).run ops).1,
      ((PlainStore.mk lists p.ledger).run ops).2) := by
  rw [run_cons, first]
  rfl

theorem step_on_absent (absent : p.lists.find? name = none) (op : ListOp α) :
    p.step (.on name op) = p.refuse := by
  show p.work name _ = _
  unfold work
  rw [absent]

theorem step_on (found : p.lists.find? name = some list) (op : ListOp α) :
    p.step (.on name op) = match PlainBench.perform op ⟨list, p.session⟩ with
      | .ok answer b => conclude (p.lists.put name b.list) (.ok answer b.session)
      | .error panic b => conclude (p.lists.put name b.list) (.error panic b.session) := by
  show p.work name _ = _
  unfold work
  rw [found]

section Removal

variable {front back : List (Handle × α)} {handle : Handle} {value : α}

theorem popFront_ends (found : p.lists.find? name = some list)
    (entries : list.roster.entries = (handle, value) :: back) :
    p.step (.on name .popFront) =
      conclude (p.lists.put name ⟨list.roster.takeOut [] handle back, list.hooks⟩)
        (.ok (.value (some value)) p.session) := by
  rw [step_on found, PlainBench.perform, bind_apply, PlainBench.edit_apply]
  unfold Roster.popFront
  rw [entries]
  rfl

theorem popBack_ends (found : p.lists.find? name = some list)
    (entries : list.roster.entries = front ++ [(handle, value)]) :
    p.step (.on name .popBack) =
      conclude (p.lists.put name ⟨list.roster.takeOut front handle [], list.hooks⟩)
        (.ok (.value (some value)) p.session) := by
  rw [step_on found, PlainBench.perform, bind_apply, PlainBench.edit_apply]
  unfold Roster.popBack
  rw [entries, List.getLast?_concat, List.dropLast_concat]
  rfl

theorem delete_hands_out (found : p.lists.find? name = some list) (proper : list.roster.Proper)
    (entries : list.roster.entries = front ++ (handle, value) :: back) :
    p.step (.on name (.delete handle)) =
      conclude (p.lists.put name ⟨list.roster.takeOut front handle back, list.hooks⟩)
        (list.hooks.handOut value (.delete handle) p.session) := by
  have nodup := proper.handles_nodup
  rw [Roster.handles, entries] at nodup
  have here := locate_middle (outside_front nodup) value back
  rw [← entries] at here
  rw [step_on found, PlainBench.perform, bind_apply, PlainBench.delete_apply, here]
  unfold HookSet.handOut
  rcases list with ⟨q, ⟨dup, free, matching⟩⟩
  cases free with
  | none => rfl
  | some hook =>
    simp only [bind_apply, Session.free]
    cases Session.callFree hook value p.session <;> rfl

end Removal

theorem join_ends (ne : name ≠ source) (found : p.lists.find? name = some list)
    (found' : p.lists.find? source = some other) (memory : Memory) :
    p.step (.join name source memory) =
      match list.roster.reserve memory other.roster.entries.length with
      | .ok grown => conclude
        ((p.lists.put name ⟨grown.pushAll other.roster.values, list.hooks⟩).put source
          ⟨other.roster.reset, other.hooks⟩) (.ok .done p.session)
      | .error shortage => conclude ((p.lists.put name list).put source other)
        (.ok (.failed .outOfMemory) (p.session.noted (.allocationFailed shortage))) := by
  show p.join memory name source = _
  unfold join pair
  rw [if_neg ne, found, found']
  unfold PlainBench.join
  dsimp only
  cases list.roster.reserve memory other.roster.entries.length <;> rfl

theorem empty_ends (found : p.lists.find? name = some list) :
    p.step (.on name .empty) =
      match Session.freeAll list.hooks.free list.roster.values
          (p.session.noted (.emptying list.roster.entries.length)) with
      | .ok () t => conclude (p.lists.put name ⟨list.roster.reset, list.hooks⟩) (.ok .done t)
      | .error panic t => conclude
        (p.lists.put name ⟨list.roster.dropFront t.calls.length, list.hooks⟩) (.error panic t) := by
  rw [step_on found, PlainBench.perform, bind_apply, PlainBench.empty_apply]
  cases Session.freeAll list.hooks.free list.roster.values
    (p.session.noted (.emptying list.roster.entries.length)) <;> rfl

theorem duplicate_ends (found : p.lists.find? source = some list) (memory : Memory) :
    p.step (.duplicate source name memory) =
      p.keep name (list.duplicateBy memory list.hooks.dup p.session) := by
  show p.duplicate source name _ = _
  unfold duplicate
  rw [found]
  rfl

theorem duplicateWithHook_ends {hook : DupHook α} (found : p.lists.find? source = some list)
    (installed : list.hooks.dup = some hook) (memory : Memory) :
    p.step (.duplicateWithHook source name memory) =
      p.keep name (list.duplicateBy memory (some hook) p.session) := by
  show p.duplicate source name _ = _
  unfold duplicate PlainList.duplicateWithHook
  simp only [found, installed]

theorem duplicateWithHook_unhooked (found : p.lists.find? source = some list)
    (unhooked : list.hooks.dup = none) (memory : Memory) :
    p.step (.duplicateWithHook source name memory) =
      conclude p.lists (.ok (.failed .duplicateFailed) (p.session.noted .noDupHook)) := by
  show p.duplicate source name _ = _
  unfold duplicate PlainList.duplicateWithHook
  simp only [found, unhooked]
  rfl

end PlainStore

end LinkedSlots
