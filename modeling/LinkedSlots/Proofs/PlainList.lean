import LinkedSlots.HookedList.Duplicate
import LinkedSlots.Proofs.Freeing
import LinkedSlots.Proofs.Joining
import LinkedSlots.Proofs.UpdatingWalk
import LinkedSlots.Store.Perform

namespace LinkedSlots

variable {α β : Type}

namespace Roster

def insert [Stored α] (memory : Memory) (place : Place) (value : α) :
    Edit (Roster α) (Except Shortage Handle) := fun q =>
  match q.gap place with
  | .error cause => .error cause q
  | .ok (front, back) =>
    match q.reserveSlot memory with
    | .error shortage => .ok (.error shortage) q
    | .ok grown => .ok (.ok grown.fresh) (grown.putBetween front back value)

def unlink (handle : Handle) : Edit (Roster α) α := fun q =>
  match locate handle q.entries with
  | none => .error (q.missing handle) q
  | some (front, value, back) => .ok value (q.takeOut front handle back)

def popFront : Edit (Roster α) (Option α) := fun q =>
  match q.entries with
  | [] => .ok none q
  | (handle, value) :: back => .ok (some value) (q.takeOut [] handle back)

def popBack : Edit (Roster α) (Option α) := fun q =>
  match q.entries.getLast? with
  | none => .ok none q
  | some (handle, value) => .ok (some value) (q.takeOut q.entries.dropLast handle [])

def makeRoom [Stored α] (memory : Memory) (count : Nat) : Edit (Roster α) (Except Shortage Unit) :=
  fun q =>
  match q.reserve memory count with
  | .error shortage => .ok (.error shortage) q
  | .ok grown => .ok (.ok ()) grown

def walkUpdating (changes : Changes α) (steps : List WalkStep) :
    Edit (Roster α) (List (WalkAnswer α)) := fun q =>
  .ok (WalkStep.answers steps q.values) (q.withEntries (q.entries.map
    (touch changes ((WalkStep.answers steps q.entries).flatMap WalkAnswer.given))))

def dropFront (count : Nat) (q : Roster α) : Roster α :=
  { q with
    entries := q.entries.drop count
    vacant := ((q.entries.take count).map Prod.fst).reverse ++ q.vacant }

def get? (q : Roster α) (handle : Handle) : Option α :=
  (locate handle q.entries).map fun (_, value, _) => value

def next? (q : Roster α) (handle : Handle) : Option Handle :=
  (locate handle q.entries).bind fun (_, _, back) => back.head?.map Prod.fst

def prev? (q : Roster α) (handle : Handle) : Option Handle :=
  (locate handle q.entries).bind fun (front, _, _) => front.getLast?.map Prod.fst

def index (q : Roster α) : Int → Option Handle
  | .ofNat position => q.handles[position]?
  | .negSucc position => q.handles.reverse[position]?

end Roster

/-- A list without links: a roster in the place of the chain. -/
structure PlainList (α : Type) where
  roster : Roster α
  hooks : HookSet α

structure PlainBench (α : Type) where
  list : PlainList α
  session : Session α

namespace PlainBench

def edit (change : Edit (Roster α) β) : Act (PlainBench α) β := fun ⟨⟨roster, hooks⟩, session⟩ =>
  match change roster with
  | .ok result roster => .ok result ⟨⟨roster, hooks⟩, session⟩
  | .error cause roster => .error (.fault cause) ⟨⟨roster, hooks⟩, session⟩

theorem edit_apply (change : Edit (Roster α) β) (list : PlainList α) (s : Session α) :
    edit change ⟨list, s⟩ = match change list.roster with
      | .ok result roster => .ok result ⟨⟨roster, list.hooks⟩, s⟩
      | .error cause roster => .error (.fault cause) ⟨⟨roster, list.hooks⟩, s⟩ := rfl

def share (act : Act (Session α) β) : Act (PlainBench α) β := fun ⟨list, session⟩ =>
  match act session with
  | .ok result session => .ok result ⟨list, session⟩
  | .error panic session => .error panic ⟨list, session⟩

theorem share_apply (act : Act (Session α) β) (plain : PlainList α) (s : Session α) :
    share act ⟨plain, s⟩ = match act s with
      | .ok result t => .ok result ⟨plain, t⟩
      | .error panic t => .error panic ⟨plain, t⟩ := rfl

def install (change : HookSet α → Ledger α → HookSet α × Ledger α) : Act (PlainBench α) Unit :=
  modify fun ⟨⟨roster, hooks⟩, session⟩ =>
    let (hooks, ledger) := change hooks session.ledger
    ⟨⟨roster, hooks⟩, { session with ledger := ledger }⟩

section Stored

variable [Stored α]

def reserve (memory : Memory) (count : Nat) : Act (PlainBench α) (Except ListError Unit) := do
  match ← edit (Roster.makeRoom memory count) with
  | .ok () => return .ok ()
  | .error shortage => return .error (← share (Session.noteShortage shortage))

theorem reserve_apply (memory : Memory) (count : Nat) (list : PlainList α) (s : Session α) :
    reserve memory count ⟨list, s⟩ = match list.roster.reserve memory count with
      | .ok grown => .ok (.ok ()) ⟨⟨grown, list.hooks⟩, s⟩
      | .error shortage =>
        .ok (.error (.ofShortage shortage)) ⟨list, s.noted (.allocationFailed shortage)⟩ := by
  unfold reserve
  rw [bind_apply, edit_apply]
  unfold Roster.makeRoom
  cases list.roster.reserve memory count <;> rfl

def insert (memory : Memory) (place : Place) (value : α) :
    Act (PlainBench α) (Except (InsertError α) Handle) := do
  match ← edit (Roster.insert memory place value) with
  | .ok handle => return .ok handle
  | .error shortage => return .error ⟨← share (Session.noteShortage shortage), value⟩

theorem insert_apply (memory : Memory) (place : Place) (value : α) (list : PlainList α)
    (s : Session α) :
    insert memory place value ⟨list, s⟩ = match list.roster.gap place with
      | .error cause => .error (.fault cause) ⟨list, s⟩
      | .ok (front, back) =>
        match list.roster.reserveSlot memory with
        | .error shortage => .ok (.error ⟨.ofShortage shortage, value⟩)
          ⟨list, s.noted (.allocationFailed shortage)⟩
        | .ok grown =>
          .ok (.ok grown.fresh) ⟨⟨grown.putBetween front back value, list.hooks⟩, s⟩ := by
  unfold insert
  rw [bind_apply, edit_apply]
  unfold Roster.insert
  cases list.roster.gap place with
  | error cause => rfl
  | ok between =>
    cases list.roster.reserveSlot memory <;> rfl

end Stored

def delete (handle : Handle) : Act (PlainBench α) (Option α) := do
  let value ← edit (Roster.unlink handle)
  match (← get).list.hooks.free with
  | none => return some value
  | some hook =>
    share (Session.callFree hook value)
    return none

theorem delete_apply (handle : Handle) (list : PlainList α) (s : Session α) :
    delete handle ⟨list, s⟩ = match locate handle list.roster.entries with
      | none => .error (.fault (list.roster.missing handle)) ⟨list, s⟩
      | some (front, value, back) =>
        let left : PlainList α := ⟨list.roster.takeOut front handle back, list.hooks⟩
        match list.hooks.free with
        | none => .ok (some value) ⟨left, s⟩
        | some hook =>
          match Session.free (some hook) value s with
          | .ok () t => .ok none ⟨left, t⟩
          | .error panic t => .error panic ⟨left, t⟩ := by
  unfold delete
  rw [bind_apply, edit_apply]
  unfold Roster.unlink
  cases locate handle list.roster.entries with
  | none => rfl
  | some split =>
    rcases split with ⟨front, value, back⟩
    rcases list with ⟨q, ⟨dup, free, matching⟩⟩
    cases free with
    | none => rfl
    | some hook =>
      show EStateM.bind (share (Session.callFree hook value)) _ _ = _
      unfold EStateM.bind
      rw [share_apply]
      unfold Session.free
      dsimp only
      cases Session.callFree hook value s <;> rfl

def clear : Act (PlainBench α) Unit := fun ⟨⟨q, hooks⟩, session⟩ =>
  match Session.freeAll hooks.free q.values session with
  | .ok () after => .ok () ⟨⟨q.reset, hooks⟩, after⟩
  -- The value at which a call panics is gone, like those before it.
  | .error panic after =>
    .error panic ⟨⟨q.dropFront (after.calls.length - session.calls.length), hooks⟩, after⟩

theorem clear_apply (list : PlainList α) (s : Session α) :
    clear ⟨list, s⟩ = match Session.freeAll list.hooks.free list.roster.values s with
      | .ok () t => .ok () ⟨⟨list.roster.reset, list.hooks⟩, t⟩
      | .error panic t => .error panic
        ⟨⟨list.roster.dropFront (t.calls.length - s.calls.length), list.hooks⟩, t⟩ := rfl

def empty : Act (PlainBench α) Unit := do
  share (Session.note (.emptying (← get).list.roster.entries.length))
  clear

theorem empty_apply (list : PlainList α) (s : Session α) :
    empty ⟨list, s⟩ = match Session.freeAll list.hooks.free list.roster.values
        (s.noted (.emptying list.roster.entries.length)) with
      | .ok () t => .ok () ⟨⟨list.roster.reset, list.hooks⟩, t⟩
      | .error panic t => .error panic
        ⟨⟨list.roster.dropFront (t.calls.length - s.calls.length), list.hooks⟩, t⟩ := rfl

def release : Act (PlainBench α) Unit := do
  share (Session.note (.releasing (← get).list.roster.entries.length))
  tryCatch clear fun panic => do
    tryCatch clear fun _ => throw .abort
    throw panic

def search [BEq α] (key : α) : Act (PlainBench α) (Option Handle) := do
  let list := (← get).list
  match list.hooks.matching with
  | none => share (HookedList.findEntry (fun stored => return stored == key) list.roster.entries)
  | some hook =>
    share (HookedList.findEntry (Session.callMatch hook · key) list.roster.entries)

def searchWithHook (key : α) : Act (PlainBench α) (Option Handle) := do
  let list := (← get).list
  match list.hooks.matching with
  | none => return none
  | some hook =>
    share (HookedList.findEntry (Session.callMatch hook · key) list.roster.entries)

def perform [BEq α] [Outlined α] [Stored α] : ListOp α → Act (PlainBench α) (Answer α)
  | .length => do
    let entries := (← get).list.roster.entries
    return .length entries.length entries.isEmpty
  | .describeHooks => do
    let hooks := (← get).list.hooks
    return .hooks hooks.dup.isSome hooks.free.isSome hooks.matching.isSome hooks.debugText
  | .setHooks policies => do
    install fun _ ledger => ledger.enrollAll policies
    return .done
  | .setDup policy => do
    install fun hooks ledger =>
      ({ hooks with dup := some (ledger.enroll policy).1 }, (ledger.enroll policy).2)
    return .done
  | .setFree policy => do
    install fun hooks ledger =>
      ({ hooks with free := some (ledger.enroll policy).1 }, (ledger.enroll policy).2)
    return .done
  | .setMatching policy => do
    install fun hooks ledger =>
      ({ hooks with matching := some (ledger.enroll policy).1 }, (ledger.enroll policy).2)
    return .done
  | .reserve memory count => return .ofReserve (← reserve memory count)
  | .insert memory place value => return .ofInsert (← insert memory place value)
  | .delete handle => return .value (← delete handle)
  | .popFront => return .value (← edit Roster.popFront)
  | .popBack => return .value (← edit Roster.popBack)
  | .empty => do
    empty
    return .done
  | .front => return .value (← get).list.roster.values.head?
  | .back => return .value (← get).list.roster.values.getLast?
  | .head => return .handle (← get).list.roster.handles.head?
  | .tail => return .handle (← get).list.roster.handles.getLast?
  | .get handle => return .value ((← get).list.roster.get? handle)
  | .next handle => return .handle ((← get).list.roster.next? handle)
  | .prev handle => return .handle ((← get).list.roster.prev? handle)
  | .index position => return .handle ((← get).list.roster.index position)
  | .updateFront change => return .value (← edit (modifyGet (Roster.updateFront change)))
  | .updateBack change => return .value (← edit (modifyGet (Roster.updateBack change)))
  | .update handle change => return .value (← edit (modifyGet (Roster.update handle change)))
  | .rotateTailToHead => do
    edit (modify Roster.rotateTailToHead)
    return .done
  | .rotateHeadToTail => do
    edit (modify Roster.rotateHeadToTail)
    return .done
  | .search key => return .handle (← search key)
  | .searchWithHook key => return .handle (← searchWithHook key)
  | .walkHandles steps => return .walkedHandles (WalkStep.answers steps (← get).list.roster.handles)
  | .walkValues steps => return .walkedValues (WalkStep.answers steps (← get).list.roster.values)
  | .walkUpdating changes steps =>
    return .walkedValues (← edit (Roster.walkUpdating changes steps))
  | .render layout => return .text (layout.render (← get).list.roster.values)

def appendCopies (hook? : Option (DupHook α)) : List α → Act (PlainBench α) (Except ListError Unit)
  | [] => return .ok ()
  | value :: rest => do
    match ← share (HookedList.copyValue hook? value) with
    | none =>
      share (Session.note (.dupFailed (← get).list.roster.entries.length))
      return .error .duplicateFailed
    | some copied =>
      edit (modify (Roster.push · copied))
      appendCopies hook? rest

def join [Stored α] (memory : Memory) : Act (PlainBench α × PlainList α) (Except ListError Unit) :=
  fun (⟨⟨q, hooks⟩, session⟩, ⟨p, otherHooks⟩) =>
    match q.reserve memory p.entries.length with
    | .ok grown =>
      .ok (.ok ()) (⟨⟨grown.pushAll p.values, hooks⟩, session⟩, ⟨p.reset, otherHooks⟩)
    | .error shortage =>
      .ok (.error (.ofShortage shortage))
        (⟨⟨q, hooks⟩, session.noted (.allocationFailed shortage)⟩, ⟨p, otherHooks⟩)

end PlainBench

namespace PlainList

def drop (list : PlainList α) : Act (Session α) Unit :=
  Session.freeAll list.hooks.free list.roster.values

def dropUnwinding (list : PlainList α) : Act (Session α) Unit :=
  tryCatch list.drop fun _ => throw .abort

def release (list : PlainList α) : Act (Session α) Unit := fun session =>
  match PlainBench.release ⟨list, session⟩ with
  | .ok () b => .ok () b.session
  | .error panic b => .error panic b.session

theorem release_apply (list : PlainList α) (s : Session α) :
    list.release s =
      match Session.freeAll list.hooks.free list.roster.values
          (s.noted (.releasing list.roster.entries.length)) with
      | .ok _ t => .ok () t
      | .error panic t =>
        match Session.freeAll list.hooks.free
            (list.roster.values.drop (t.calls.length - s.calls.length)) t with
        | .ok _ u => .error panic u
        | .error _ u => .error .abort u := by
  have start : PlainBench.release ⟨list, s⟩ =
      (tryCatch PlainBench.clear fun panic => do
        tryCatch PlainBench.clear fun _ => throw .abort
        throw panic : Act (PlainBench α) Unit)
        ⟨list, s.noted (.releasing list.roster.entries.length)⟩ := rfl
  unfold release
  rw [start, tryCatch_apply, PlainBench.clear_apply]
  cases Session.freeAll list.hooks.free list.roster.values
      (s.noted (.releasing list.roster.entries.length)) with
  | ok done t => rfl
  | error panic t =>
    have left : (list.roster.dropFront (t.calls.length - s.calls.length)).values =
        list.roster.values.drop (t.calls.length - s.calls.length) := List.map_drop
    have noted : (s.noted (.releasing list.roster.entries.length)).calls = s.calls := rfl
    rw [noted]
    simp only [bind_apply, tryCatch_apply, PlainBench.clear_apply, left]
    cases Session.freeAll list.hooks.free
      (list.roster.values.drop (t.calls.length - s.calls.length)) t <;> rfl

def walkTaking (steps : List WalkStep) (list : PlainList α) :
    Act (Session α) (List (WalkAnswer α)) := do
  Session.freeAll list.hooks.free (WalkStep.leftBy steps list.roster.values)
  return WalkStep.answers steps list.roster.values

variable [Stored α]

def withRoom (memory : Memory) (count : Nat) : Act (Session α) (Except ListError (PlainList α)) :=
  match (Roster.empty : Roster α).reserve memory count with
  | .ok q => return .ok ⟨q, {}⟩
  | .error shortage => return .error (← Session.noteShortage shortage)

def duplicateBy (memory : Memory) (hook? : Option (DupHook α)) (list : PlainList α) :
    Act (Session α) (Except ListError (PlainList α)) := fun session =>
  match (Roster.empty : Roster α).reserve memory list.roster.entries.length with
  | .error shortage => .ok (.error (.ofShortage shortage)) (session.noted (.allocationFailed shortage))
  | .ok room =>
    match PlainBench.appendCopies hook? list.roster.values ⟨⟨room, list.hooks⟩, session⟩ with
    | .ok (.ok ()) b => .ok (.ok b.list) b.session
    | .ok (.error e) b => (do b.list.drop; return .error e : Act (Session α) _) b.session
    | .error panic b => (do b.list.dropUnwinding; throw panic : Act (Session α) _) b.session

def duplicate (memory : Memory) (list : PlainList α) :
    Act (Session α) (Except ListError (PlainList α)) :=
  duplicateBy memory list.hooks.dup list

def duplicateWithHook (memory : Memory) (list : PlainList α) :
    Act (Session α) (Except ListError (PlainList α)) :=
  match list.hooks.dup with
  | none => do
    Session.note .noDupHook
    return .error .duplicateFailed
  | some hook => duplicateBy memory (some hook) list

end PlainList

end LinkedSlots
