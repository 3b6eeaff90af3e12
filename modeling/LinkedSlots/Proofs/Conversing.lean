import LinkedSlots.Proofs.Dialogue

namespace LinkedSlots

variable {α β γ ρ : Type} {known : AnyHook α → Prop}

namespace Session

def alone : Unit → Session α → Session α := fun _ s => s

theorem ask_talks {question : Question α ρ} (asked : known question.hook) :
    Talks known alone question.ask := by
  intro _
  refine ⟨.ask question fun reply => .ends ((reply.mapError .hook, ()), []),
    ⟨asked, fun _ => trivial⟩, ?_⟩
  intro s past records
  refine (question.ask_eq records).trans ?_
  simp only [Dialogue.held]
  cases question.reply past <;> rfl

theorem note_talks (entry : LogEntry) : Talks known alone (note entry : Act (Session α) Unit) := by
  intro _
  apply Converses.silent (.ok (), ()) [entry]
  intro s
  rw [after_noted]
  rfl

theorem noteShortage_talks (shortage : Shortage) :
    Talks known alone (noteShortage shortage : Act (Session α) ListError) :=
  (note_talks _).bind fun _ => .pure _

theorem copyValue_talks {hook? : Option (DupHook α)}
    (asked : ∀ hook, hook? = some hook → known (.dup hook)) (value : α) :
    Talks known alone (HookedList.copyValue hook? value) := by
  cases hook? with
  | none => exact .pure (some value)
  | some hook =>
    have question : known (Question.dup hook value).hook := asked hook rfl
    exact ask_talks question

theorem findEntry_talks {test : α → Act (Session α) Bool}
    (talks : ∀ value, Talks known alone (test value)) (entries : List (Handle × α)) :
    Talks known alone (HookedList.findEntry test entries) := by
  induction entries with
  | nil => exact .pure none
  | cons entry rest ih =>
    apply (talks entry.2).bind
    intro found
    cases found with
    | true => exact .pure (some entry.1)
    | false => exact ih

end Session

namespace Workbench

variable {hooks : HookSet α}

def seat (hooks : HookSet α) : Chain α → Session α → Workbench α := fun c s => ⟨⟨c, hooks⟩, s⟩

/-- What is read of a list does not depend on the session. -/
theorem read_talks (next : HookedList α → Act (Workbench α) β)
    (later : ∀ c, Talks known (seat hooks) (next ⟨c, hooks⟩)) :
    Talks known (seat hooks) (do next (← get).list) :=
  fun c => later c c

theorem look_talks (answer : HookedList α → β) :
    Talks known (seat hooks) (do return answer (← get).list) :=
  read_talks (fun list => return answer list) fun _ => .pure _

theorem edit_talks (change : Edit (Chain α) β) : Talks known (seat hooks) (edit change) := by
  intro c
  cases run : change c with
  | ok result c' =>
    apply Converses.still (.ok result, c')
    intro s
    simp only [edit, seat, run]
    rfl
  | error cause c' =>
    apply Converses.still (.error (.fault cause), c')
    intro s
    simp only [edit, seat, run]
    rfl

theorem inspect_talks (look : Chain α → Except Fault β) : Talks known (seat hooks) (inspect look) := by
  intro c
  cases run : look c with
  | ok result =>
    apply Converses.still (.ok result, c)
    intro s
    simp only [inspect, seat, run]
    rfl
  | error cause =>
    apply Converses.still (.error (.fault cause), c)
    intro s
    simp only [inspect, seat, run]
    rfl

def back (list : HookedList α) :
    EStateM.Result Panic (Session α) β → EStateM.Result Panic (Workbench α) β
  | .ok result s => .ok result ⟨list, s⟩
  | .error panic s => .error panic ⟨list, s⟩

theorem share_talks {act : Act (Session α) β} (talks : Talks known Session.alone act) :
    Talks known (seat hooks) (share act) := by
  intro c
  have whole : (fun s => share act (seat hooks c s)) = fun s => back ⟨c, hooks⟩ (act s) := by
    funext s
    simp only [share, seat]
    cases act s <;> rfl
  rw [whole]
  apply (talks ()).follow
  rintro ⟨panic | result, _⟩
  · exact .still (.error panic, c) fun _ => rfl
  · exact .still (.ok result, c) fun _ => rfl

theorem done_talks {act : Act (Workbench α) β} (talks : Talks known (seat hooks) act) (answer : γ) :
    Talks known (seat hooks) (do let _ ← act; return answer) :=
  talks.bind fun _ => .pure answer

theorem map_talks {act : Act (Workbench α) β} (talks : Talks known (seat hooks) act) (answer : β → γ) :
    Talks known (seat hooks) (do return answer (← act)) :=
  talks.bind fun _ => .pure _

/-- A computation on a bench of its own, and what the session goes on with. -/
theorem follow_talks {act : Act (Workbench α) β} {whole : Act (Session α) γ} (c : Chain α)
    (next : Except Panic β → HookedList α → Act (Session α) γ)
    (first : Talks known (seat hooks) act)
    (later : ∀ result c', Talks known Session.alone (next result ⟨c', hooks⟩))
    (same : ∀ s, whole s = match act ⟨⟨c, hooks⟩, s⟩ with
      | .ok result b => next (.ok result) b.list b.session
      | .error panic b => next (.error panic) b.list b.session) :
    Talks known Session.alone whole := by
  intro k
  let go : EStateM.Result Panic (Workbench α) β → EStateM.Result Panic (Session α) γ
    | .ok result b => next (.ok result) b.list b.session
    | .error panic b => next (.error panic) b.list b.session
  have taken : (fun s => whole (Session.alone k s)) = fun s => go (act (seat hooks c s)) := by
    funext s
    refine (same s).trans ?_
    unfold seat
    cases act ⟨⟨c, hooks⟩, s⟩ <;> rfl
  rw [taken]
  apply (first c).follow
  rintro ⟨panic | result, c'⟩
  · exact later (.error panic) c' k
  · exact later (.ok result) c' k

theorem consume_talks {act : Act (Workbench α) β} (c : Chain α) (talks : Talks known (seat hooks) act) :
    Talks known Session.alone (consume act ⟨c, hooks⟩) := by
  let next : Except Panic β → HookedList α → Act (Session α) β
    | .ok result, _ => pure result
    | .error panic, _ => throw panic
  refine follow_talks c next talks ?_ fun s => ?_
  · rintro (panic | result) c'
    · exact .throw panic
    · exact .pure result
  · unfold consume
    cases act ⟨⟨c, hooks⟩, s⟩ <;> rfl

end Workbench

namespace HookedList

open Workbench

variable {hooks : HookSet α} {hook? : Option (DupHook α)}

section Stored

variable [Stored α]

theorem reserve_talks (memory : Memory) (count : Nat) :
    Talks known (seat hooks) (reserve memory count) := by
  apply (edit_talks _).bind
  intro room
  cases room with
  | ok done => exact .pure _
  | error shortage => exact map_talks (share_talks (Session.noteShortage_talks shortage)) _

theorem insert_talks (memory : Memory) (place : Place) (value : α) :
    Talks known (seat hooks) (insert memory place value) := by
  apply (edit_talks _).bind
  intro placed
  cases placed with
  | ok handle => exact .pure _
  | error shortage => exact map_talks (share_talks (Session.noteShortage_talks shortage)) _

theorem appendCopies_talks (asked : ∀ hook, hook? = some hook → known (.dup hook)) (memory : Memory)
    (values : List α) : Talks known (seat hooks) (appendCopies memory hook? values) := by
  induction values with
  | nil => exact .pure _
  | cons value rest ih =>
    apply (share_talks (Session.copyValue_talks asked value)).bind
    intro copy?
    cases copy? with
    | none =>
      have refused : Talks known (seat hooks) (do
          share (Session.note (.dupFailed (← get).list.chain.length))
          return (.error .duplicateFailed : Except ListError Unit) : Act (Workbench α) _) := by
        apply read_talks fun list => do
          share (Session.note (.dupFailed list.chain.length))
          return (.error .duplicateFailed : Except ListError Unit)
        intro c
        exact done_talks (share_talks (Session.note_talks _)) _
      exact refused
    | some copied =>
      apply (insert_talks memory .tail copied).bind
      intro placed
      cases placed with
      | error e => exact .pure _
      | ok handle => exact ih

theorem fillCopy_talks (asked : ∀ hook, hook? = some hook → known (.dup hook)) (memory : Memory)
    (values : List α) : Talks known (seat hooks) (fillCopy memory hook? values) := by
  apply (reserve_talks memory values.length).bind
  intro room
  cases room with
  | error e => exact .pure _
  | ok done => exact appendCopies_talks asked memory values

theorem withRoom_talks (memory : Memory) (count : Nat) :
    Talks known Session.alone (withRoom (α := α) memory count) := by
  let finish : Except Panic (Except ListError Unit) → HookedList α →
      Act (Session α) (Except ListError (HookedList α))
    | .ok (.ok ()), list => return .ok list
    | .ok (.error e), _ => return .error e
    | .error panic, _ => throw panic
  have first : Talks known (seat {}) (reserve (α := α) memory count) := reserve_talks memory count
  refine follow_talks .empty finish first ?_ fun s => ?_
  · rintro (panic | e | done) c'
    · exact .throw panic
    · exact .pure _
    · exact .pure _
  · simp only [withRoom, ofHooks]
    rcases reserve memory count ⟨⟨.empty, {}⟩, s⟩ with ⟨_ | _, b⟩ | ⟨panic, b⟩ <;> rfl

end Stored

section Known

variable (among : ∀ hook, hooks.Holds hook → known hook)

include among

theorem callFree_talks {hook : FreeHook α} (installed : hooks.free = some hook) (value : α) :
    Talks known Session.alone (Session.callFree hook value) := by
  have question : known (Question.free hook value).hook := among (.free hook) installed
  exact Session.ask_talks question

theorem callMatch_talks {hook : MatchHook α} (installed : hooks.matching = some hook) (stored key : α) :
    Talks known Session.alone (Session.callMatch hook stored key) := by
  have question : known (Question.matching hook stored key).hook := among (.matching hook) installed
  exact Session.ask_talks question

theorem delete_talks (handle : Handle) : Talks known (seat hooks) (delete handle) := by
  apply (edit_talks _).bind
  intro value
  cases installed : hooks.free with
  | none =>
    apply (Talks.pure (some value)).of_eq
    intro c s
    simp only [seat, bind_apply, get_apply, installed]
  | some hook =>
    apply (done_talks (share_talks (callFree_talks among installed value)) none).of_eq
    intro c s
    simp only [seat, bind_apply, get_apply, installed]

theorem dispose_talks (value : α) : Talks known (seat hooks) (dispose value) := by
  cases installed : hooks.free with
  | none =>
    apply (Talks.pure ()).of_eq
    intro c s
    simp only [dispose, seat, bind_apply, get_apply, installed]
  | some hook =>
    apply (share_talks (callFree_talks among installed value)).of_eq
    intro c s
    simp only [dispose, seat, bind_apply, get_apply, installed]

theorem freeFront_talks (count : Nat) : Talks known (seat hooks) (freeFront count) := by
  induction count with
  | zero => exact .pure ()
  | succ count ih =>
    apply (edit_talks _).bind
    intro popped
    cases popped with
    | none => exact .pure ()
    | some value => exact (dispose_talks among value).bind fun _ => ih

theorem clear_talks : Talks known (seat hooks) (clear (α := α)) := by
  apply read_talks fun list => do
    freeFront list.chain.length
    edit (modify Chain.reset)
  intro c
  exact (freeFront_talks among c.length).bind fun _ => edit_talks _

theorem empty_talks : Talks known (seat hooks) (empty (α := α)) := by
  apply read_talks fun list => do
    share (Session.note (.emptying list.chain.length))
    clear
  intro c
  exact (share_talks (Session.note_talks _)).bind fun _ => clear_talks among

theorem clearUnwinding_talks : Talks known (seat hooks) (clearUnwinding (α := α)) :=
  (clear_talks among).tryCatch fun _ => .throw _

theorem release_talks : Talks known (seat hooks) (release (α := α)) := by
  apply read_talks fun list => do
    share (Session.note (.releasing list.chain.length))
    tryCatch clear fun panic => do
      clearUnwinding
      throw panic
  intro c
  apply (share_talks (Session.note_talks _)).bind
  intro _
  apply (clear_talks among).tryCatch
  intro panic
  exact (clearUnwinding_talks among).bind fun _ => .throw panic

theorem walkTaking_talks (steps : List WalkStep) : Talks known (seat hooks) (walkTaking (α := α) steps) :=
  (edit_talks _).bind fun _ => (clear_talks among).bind fun _ => .pure _

theorem drop_talks (c : Chain α) : Talks known Session.alone (drop ⟨c, hooks⟩) :=
  consume_talks c (clear_talks among)

theorem dropUnwinding_talks (c : Chain α) : Talks known Session.alone (dropUnwinding ⟨c, hooks⟩) :=
  consume_talks c (clearUnwinding_talks among)

theorem findMatch_talks {hook : MatchHook α} (installed : hooks.matching = some hook) (key : α) :
    Talks known (seat hooks) (findMatch hook key) := by
  apply (inspect_talks _).bind
  intro entries
  exact share_talks (Session.findEntry_talks (fun stored => callMatch_talks among installed stored key) _)

theorem searchWithHook_talks (key : α) : Talks known (seat hooks) (searchWithHook key) := by
  cases installed : hooks.matching with
  | none =>
    apply (Talks.pure none).of_eq
    intro c s
    simp only [searchWithHook, seat, bind_apply, get_apply, installed]
  | some hook =>
    apply (findMatch_talks among installed key).of_eq
    intro c s
    simp only [searchWithHook, seat, bind_apply, get_apply, installed]

theorem search_talks [BEq α] (key : α) : Talks known (seat hooks) (search key) := by
  cases installed : hooks.matching with
  | none =>
    have sought : Talks known (seat hooks) (findBy fun stored => return stored == key) :=
      (inspect_talks _).bind fun _ => share_talks (Session.findEntry_talks (fun _ => .pure _) _)
    apply sought.of_eq
    intro c s
    simp only [search, seat, bind_apply, get_apply, installed]
  | some hook =>
    apply (findMatch_talks among installed key).of_eq
    intro c s
    simp only [search, seat, bind_apply, get_apply, installed]

variable [Stored α]

theorem duplicateBy_talks (asked : ∀ hook, hook? = some hook → known (.dup hook)) (memory : Memory)
    (c : Chain α) : Talks known Session.alone (duplicateBy memory hook? ⟨c, hooks⟩) := by
  cases shown : c.values with
  | error cause =>
    intro _
    apply Converses.still (.error (.fault cause), ())
    intro s
    simp only [duplicateBy, shown, Session.alone]
    rfl
  | ok values =>
    let finish : Except Panic (Except ListError Unit) → HookedList α →
        Act (Session α) (Except ListError (HookedList α))
      | .ok (.ok ()), copy => return .ok copy
      | .ok (.error e), copy => do
        drop copy
        return .error e
      | .error panic, copy => do
        dropUnwinding copy
        throw panic
    have filled : Talks known (seat hooks) (fillCopy memory hook? values) :=
      fillCopy_talks asked memory values
    refine follow_talks .empty finish filled ?_ fun s => ?_
    · rintro (panic | e | done) c'
      · exact (dropUnwinding_talks among c').bind fun _ => .throw panic
      · exact (drop_talks among c').bind fun _ => .pure _
      · exact .pure _
    · simp only [duplicateBy, shown, ofHooks]
      rcases fillCopy memory hook? values ⟨⟨.empty, hooks⟩, s⟩ with ⟨_ | _, b⟩ | ⟨panic, b⟩ <;> rfl

theorem duplicate_talks (memory : Memory) (c : Chain α) :
    Talks known Session.alone (duplicate memory ⟨c, hooks⟩) :=
  duplicateBy_talks among (fun hook installed => among (.dup hook) installed) memory c

theorem duplicateWithHook_talks (memory : Memory) (c : Chain α) :
    Talks known Session.alone (duplicateWithHook memory ⟨c, hooks⟩) := by
  unfold duplicateWithHook
  cases installed : hooks.dup with
  | none => exact (Session.note_talks _).bind fun _ => .pure _
  | some hook =>
    refine duplicateBy_talks among ?_ memory c
    rintro _ ⟨⟩
    exact among (.dup hook) installed

end Known

end HookedList

def PolicySet.fit (policies : PolicySet α) (enrolled : Nat) : HookSet α × Nat :=
  let free := enrolled + policies.dup.toList.length
  let matching := free + policies.free.toList.length
  let made : HookSet α := {
    dup := policies.dup.map fun policy => ⟨policy, enrolled⟩
    free := policies.free.map fun policy => ⟨policy, free⟩
    matching := policies.matching.map fun policy => ⟨policy, matching⟩ }
  (made, matching + policies.matching.toList.length)

theorem Ledger.enrollAll_eq (ledger : Ledger α) (policies : PolicySet α) :
    ledger.enrollAll policies = ((policies.fit ledger.enrolled).1,
      { ledger with enrolled := (policies.fit ledger.enrolled).2 }) := by
  rcases policies with ⟨_ | dup, _ | free, _ | matching⟩ <;> rfl

namespace ListOp

def outfit? (hooks : HookSet α) (enrolled : Nat) : ListOp α → Option (HookSet α × Nat)
  | .setHooks policies => some (policies.fit enrolled)
  | .setDup policy => some ({ hooks with dup := some ⟨policy, enrolled⟩ }, enrolled + 1)
  | .setFree policy => some ({ hooks with free := some ⟨policy, enrolled⟩ }, enrolled + 1)
  | .setMatching policy => some ({ hooks with matching := some ⟨policy, enrolled⟩ }, enrolled + 1)
  | _ => none

end ListOp

namespace Workbench

open HookedList

variable {hooks : HookSet α} [BEq α] [Outlined α] [Stored α]

theorem perform_outfits {op : ListOp α} {c : Chain α} {s : Session α} {fitted : HookSet α}
    {count : Nat} (outfits : op.outfit? hooks s.ledger.enrolled = some (fitted, count)) :
    perform op ⟨⟨c, hooks⟩, s⟩ = .ok .done ⟨⟨c, fitted⟩, { s with ledger.enrolled := count }⟩ := by
  cases op with
  | setHooks policies =>
    have fit : policies.fit s.ledger.enrolled = (fitted, count) := Option.some.inj outfits
    have whole : perform (.setHooks policies) ⟨⟨c, hooks⟩, s⟩ =
        .ok .done ⟨⟨c, (s.ledger.enrollAll policies).1⟩,
          { s with ledger := (s.ledger.enrollAll policies).2 }⟩ := rfl
    rw [whole, Ledger.enrollAll_eq, fit]
  | setDup policy =>
    cases outfits
    rfl
  | setFree policy =>
    cases outfits
    rfl
  | setMatching policy =>
    cases outfits
    rfl
  | _ => cases outfits

/-- Every operation on a list, but for those that install hooks, is a dialogue with its hooks. -/
theorem perform_talks (among : ∀ hook, hooks.Holds hook → known hook) {op : ListOp α}
    (keeps : ∀ enrolled, op.outfit? hooks enrolled = none) : Talks known (seat hooks) (perform op) := by
  cases op with
  | length => exact look_talks fun list => Answer.length list.chain.length list.chain.isEmpty
  | describeHooks =>
    exact look_talks fun list => Answer.hooks list.hooks.dup.isSome list.hooks.free.isSome
      list.hooks.matching.isSome list.hooks.debugText
  | setHooks policies => cases keeps 0
  | setDup policy => cases keeps 0
  | setFree policy => cases keeps 0
  | setMatching policy => cases keeps 0
  | reserve memory count => exact map_talks (reserve_talks memory count) _
  | insert memory place value => exact map_talks (insert_talks memory place value) _
  | delete handle => exact map_talks (delete_talks among handle) _
  | popFront => exact map_talks (edit_talks _) _
  | popBack => exact map_talks (edit_talks _) _
  | empty => exact done_talks (empty_talks among) _
  | front => exact map_talks (inspect_talks _) _
  | back => exact map_talks (inspect_talks _) _
  | head => exact look_talks fun list => Answer.handle list.chain.head
  | tail => exact look_talks fun list => Answer.handle list.chain.tail
  | get handle => exact look_talks fun list => Answer.value (list.chain.get? handle)
  | next handle => exact look_talks fun list => Answer.handle (list.chain.next? handle)
  | prev handle => exact look_talks fun list => Answer.handle (list.chain.prev? handle)
  | index position => exact map_talks (inspect_talks _) _
  | updateFront change => exact map_talks (edit_talks _) _
  | updateBack change => exact map_talks (edit_talks _) _
  | update handle change => exact map_talks (edit_talks _) _
  | rotateTailToHead => exact done_talks (edit_talks _) _
  | rotateHeadToTail => exact done_talks (edit_talks _) _
  | search key => exact map_talks (search_talks among key) _
  | searchWithHook key => exact map_talks (searchWithHook_talks among key) _
  | walkHandles steps => exact map_talks (inspect_talks _) _
  | walkValues steps => exact map_talks (inspect_talks _) _
  | walkUpdating changes steps => exact map_talks (edit_talks _) _
  | render layout => exact map_talks (inspect_talks _) _

end Workbench

end LinkedSlots
