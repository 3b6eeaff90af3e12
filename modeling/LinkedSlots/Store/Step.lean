import LinkedSlots.Store.Perform
import LinkedSlots.HookedList.Duplicate
import LinkedSlots.HookedList.Join

namespace LinkedSlots

structure Store (α : Type) where
  lists : Registry String (HookedList α)
  ledger : Ledger α

namespace Store

variable {α : Type}

def empty : Store α := ⟨.empty, .empty⟩

def session (s : Store α) : Session α := { ledger := s.ledger }

def conclude (lists : Registry String (HookedList α)) :
    EStateM.Result Panic (Session α) (Answer α) → Report α × Store α
  | .ok answer session =>
    (⟨.returned answer, session.calls, session.log⟩, ⟨lists, session.ledger⟩)
  | .error panic session =>
    (⟨.panicked panic, session.calls, session.log⟩, ⟨lists, session.ledger⟩)

def refuse (s : Store α) : Report α × Store α := (⟨.noList, [], []⟩, s)

/-- Stores a list under a name, then drops the list that had the name before. -/
def replace (s : Store α) (name : String) (list : HookedList α) (session : Session α) :
    Report α × Store α :=
  conclude (s.lists.put name list) <|
    match s.lists.find? name with
    | none => .ok .done session
    | some old => (do HookedList.drop old; return .done : Act (Session α) (Answer α)) session

def work (s : Store α) (name : String) (act : Act (Workbench α) (Answer α)) : Report α × Store α :=
  match s.lists.find? name with
  | none => s.refuse
  | some list =>
    match act ⟨list, s.session⟩ with
    | .ok answer b => conclude (s.lists.put name b.list) (.ok answer b.session)
    | .error panic b => conclude (s.lists.put name b.list) (.error panic b.session)

def retire (s : Store α) (name : String) (act : Act (Workbench α) (Answer α)) : Report α × Store α :=
  match s.lists.find? name with
  | none => s.refuse
  | some list => conclude (s.lists.erase name) (Workbench.consume act list s.session)

def pair (s : Store α) (name source : String)
    (act : HookedList α → HookedList α → Report α × Store α) : Report α × Store α :=
  if name = source then s.refuse
  else
    match s.lists.find? name, s.lists.find? source with
    | some list, some other => act list other
    | _, _ => s.refuse

def shareHooks (s : Store α) (name source : String) : Report α × Store α :=
  s.pair name source fun list other =>
    conclude (s.lists.put name (list.shareHooks other)) (.ok .done s.session)

def join [Stored α] (s : Store α) (memory : Memory) (name source : String) : Report α × Store α :=
  s.pair name source fun list other =>
    match HookedList.join memory (⟨list, s.session⟩, other) with
    | .ok joined (b, other) =>
      conclude ((s.lists.put name b.list).put source other) (.ok (.ofReserve joined) b.session)
    | .error panic (b, other) =>
      conclude ((s.lists.put name b.list).put source other) (.error panic b.session)

def keep (s : Store α) (name : String) :
    EStateM.Result Panic (Session α) (Except ListError (HookedList α)) → Report α × Store α
  | .ok (.ok list) session => s.replace name list session
  | .ok (.error error) session => conclude s.lists (.ok (.failed error) session)
  | .error panic session => conclude s.lists (.error panic session)

def duplicate (s : Store α) (source name : String)
    (copy : HookedList α → Act (Session α) (Except ListError (HookedList α))) :
    Report α × Store α :=
  match s.lists.find? source with
  | none => s.refuse
  | some list => s.keep name (copy list s.session)

variable [BEq α] [Outlined α] [Stored α]

def step (s : Store α) : Op α → Report α × Store α
  | .create name policies =>
    let (hooks, ledger) := s.ledger.enrollAll policies
    s.replace name (.ofHooks hooks) { ledger := ledger }
  | .createWithRoom name memory count =>
    s.keep name (HookedList.withRoom memory count s.session)
  | .on name op => s.work name (Workbench.perform op)
  | .shareHooks name source => s.shareHooks name source
  | .join name source memory => s.join memory name source
  | .duplicate source name memory => s.duplicate source name (HookedList.duplicate memory)
  | .duplicateWithHook source name memory =>
    s.duplicate source name (HookedList.duplicateWithHook memory)
  | .walkTaking name steps => s.retire name do
    return .walkedValues (← HookedList.walkTaking steps)
  | .release name => s.retire name do
    HookedList.release
    return .done
  | .drop name => s.retire name do
    HookedList.clear
    return .done

def run (s : Store α) : List (Op α) → List (Report α) × Store α
  | [] => ([], s)
  | op :: ops =>
    let (report, s) := s.step op
    let (reports, s) := s.run ops
    (report :: reports, s)

end Store

end LinkedSlots
