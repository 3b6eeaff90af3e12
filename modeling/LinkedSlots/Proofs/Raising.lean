import LinkedSlots.Proofs.PlainList

namespace LinkedSlots

variable {α β γ σ : Type}

def Panic.Hooked (panic : Panic) : Prop := ∃ text, panic = .hook text

def Raises (allowed : Panic → Prop) (act : EStateM Panic σ β) : Prop :=
  ∀ s panic t, act s = .error panic t → allowed panic

def Panic.Sound : Panic → Prop
  | .fault _ => False
  | .hook _ | .abort => True

section Raises

variable {allowed : Panic → Prop} {act : EStateM Panic σ β}

theorem Raises.pure (b : β) : Raises allowed (pure b : EStateM Panic σ β) := by
  intro s panic t ended
  cases ended

theorem Raises.get : Raises allowed (get : EStateM Panic σ σ) := by
  intro s panic t ended
  cases ended

theorem Raises.set (u : σ) : Raises allowed (set u : EStateM Panic σ PUnit) := by
  intro s panic t ended
  cases ended

theorem Raises.modify (change : σ → σ) : Raises allowed (modify change : EStateM Panic σ PUnit) := by
  intro s panic t ended
  cases ended

theorem Raises.throw {panic : Panic} (right : allowed panic) :
    Raises allowed (throw panic : EStateM Panic σ β) := by
  intro s raised t ended
  cases ended
  exact right

theorem Raises.bind {next : β → EStateM Panic σ γ} (first : Raises allowed act)
    (later : ∀ b, Raises allowed (next b)) : Raises allowed (act >>= next) := by
  intro s panic t ended
  rw [bind_apply] at ended
  cases run : act s with
  | ok b u =>
    rw [run] at ended
    exact later b u panic t ended
  | error e u =>
    rw [run] at ended
    cases ended
    exact first s panic t run

theorem Raises.tryCatch {recover : Panic → EStateM Panic σ β} (later : ∀ panic, Raises allowed (recover panic)) :
    Raises allowed (tryCatch act recover) := by
  intro s panic t ended
  rw [tryCatch_apply] at ended
  cases run : act s with
  | ok b u =>
    rw [run] at ended
    cases ended
  | error e u =>
    rw [run] at ended
    exact later e u panic t ended

end Raises

namespace Session

variable {allowed : Panic → Prop} (hooked : ∀ text, allowed (.hook text))

include hooked

theorem settle_raises (reply : Except String β) : Raises allowed (settle reply : Act (Session α) β) := by
  cases reply with
  | ok b => exact .pure b
  | error text => exact .throw (hooked text)

theorem callMatch_raises (hook : MatchHook α) (stored key : α) :
    Raises allowed (callMatch hook stored key) :=
  Raises.get.bind fun _ => (Raises.set _).bind fun _ => settle_raises hooked _

theorem copyValue_raises (hook? : Option (DupHook α)) (value : α) :
    Raises allowed (HookedList.copyValue hook? value) := by
  cases hook? with
  | none => exact .pure (some value)
  | some hook => exact Raises.get.bind fun _ => (Raises.set _).bind fun _ => settle_raises hooked _

theorem free_raises (hook? : Option (FreeHook α)) (value : α) : Raises allowed (free hook? value) := by
  cases hook? with
  | none => exact .pure ()
  | some hook => exact Raises.get.bind fun _ => (Raises.set _).bind fun _ => settle_raises hooked _

theorem freeAll_raises (hook? : Option (FreeHook α)) (values : List α) :
    Raises allowed (freeAll hook? values) := by
  induction values with
  | nil => exact .pure ()
  | cons value rest ih => exact (free_raises hooked hook? value).bind fun _ => ih

omit hooked in
theorem findEntry_raises {test : α → Act (Session α) Bool}
    (quiet : ∀ value, Raises allowed (test value)) (entries : List (Handle × α)) :
    Raises allowed (HookedList.findEntry test entries) := by
  induction entries with
  | nil => exact .pure none
  | cons entry rest ih =>
    apply (quiet entry.2).bind
    intro found
    cases found with
    | true => exact .pure (some entry.1)
    | false => exact ih

end Session

namespace ListOp

def needs? : ListOp α → Option Handle
  | .insert _ place _ => place.beside?
  | .delete handle => some handle
  | _ => none

end ListOp

namespace PlainBench

variable {allowed : Panic → Prop} {list : PlainList α} {s : Session α} {handle : Handle}

theorem share_raises {act : Act (Session α) β} (raises : Raises allowed act) :
    Raises allowed (share act) := by
  rintro ⟨list, s⟩ panic b ended
  rw [share_apply] at ended
  cases run : act s with
  | ok result t =>
    rw [run] at ended
    cases ended
  | error e t =>
    rw [run] at ended
    cases ended
    exact raises s panic t run

theorem edit_raises {change : Edit (Roster α) β} (total : ∀ q, ∃ result r, change q = .ok result r) :
    Raises allowed (edit change) := by
  rintro ⟨list, s⟩ panic b ended
  rcases total list.roster with ⟨result, q, run⟩
  rw [edit_apply, run] at ended
  cases ended

theorem makeRoom_total [Stored α] (memory : Memory) (count : Nat) (q : Roster α) :
    ∃ granted r, Roster.makeRoom memory count q = .ok granted r := by
  unfold Roster.makeRoom
  cases q.reserve memory count with
  | ok grown => exact ⟨.ok (), grown, rfl⟩
  | error shortage => exact ⟨.error shortage, q, rfl⟩

theorem popFront_total (q : Roster α) : ∃ popped r, Roster.popFront q = .ok popped r := by
  unfold Roster.popFront
  cases q.entries with
  | nil => exact ⟨none, q, rfl⟩
  | cons entry rest => exact ⟨some entry.2, _, rfl⟩

theorem popBack_total (q : Roster α) : ∃ popped r, Roster.popBack q = .ok popped r := by
  unfold Roster.popBack
  cases q.entries.getLast? with
  | none => exact ⟨none, q, rfl⟩
  | some entry => exact ⟨some entry.2, _, rfl⟩

variable (hooked : ∀ text, allowed (.hook text))

theorem reserve_raises [Stored α] (memory : Memory) (count : Nat) :
    Raises allowed (reserve memory count : Act (PlainBench α) _) := by
  refine .bind (edit_raises (makeRoom_total memory count)) ?_
  intro outcome
  cases outcome with
  | ok done => exact .pure _
  | error shortage =>
    have noted : Raises allowed (Session.noteShortage shortage : Act (Session α) ListError) :=
      .bind (.modify _) fun _ => .pure _
    exact .bind (share_raises noted) fun _ => .pure _

include hooked

theorem clear_raises : Raises allowed (clear : Act (PlainBench α) Unit) := by
  rintro ⟨list, s⟩ panic b ended
  rw [clear_apply] at ended
  cases run : Session.freeAll list.hooks.free list.roster.values s with
  | ok done t =>
    rw [run] at ended
    cases ended
  | error e t =>
    rw [run] at ended
    cases ended
    exact Session.freeAll_raises hooked _ _ s _ t run

theorem empty_raises : Raises allowed (empty : Act (PlainBench α) Unit) :=
  .bind .get fun _ => .bind (share_raises (.modify _)) fun _ => clear_raises hooked

theorem search_raises [BEq α] (key : α) : Raises allowed (search key) := by
  refine .bind .get ?_
  intro b
  dsimp only
  cases b.list.hooks.matching with
  | none => exact share_raises (Session.findEntry_raises (fun _ => .pure _) _)
  | some hook =>
    exact share_raises
      (Session.findEntry_raises (fun stored => Session.callMatch_raises hooked hook stored key) _)

theorem searchWithHook_raises (key : α) : Raises allowed (searchWithHook key) := by
  refine .bind .get ?_
  intro b
  dsimp only
  cases b.list.hooks.matching with
  | none => exact .pure none
  | some hook =>
    exact share_raises
      (Session.findEntry_raises (fun stored => Session.callMatch_raises hooked hook stored key) _)

theorem appendCopies_raises (hook? : Option (DupHook α)) (values : List α) :
    Raises allowed (appendCopies hook? values) := by
  induction values with
  | nil => exact .pure _
  | cons value rest ih =>
    refine .bind (share_raises (Session.copyValue_raises hooked hook? value)) ?_
    intro copy?
    cases copy? with
    | none =>
      refine .bind .get ?_
      exact fun _ => .bind (share_raises (.modify _)) fun _ => .pure _
    | some copied =>
      exact .bind (edit_raises fun _ => ⟨_, _, rfl⟩) fun _ => ih

omit hooked in
theorem insert_found [Stored α] {place : Place}
    (live : ∀ handle, place.beside? = some handle → handle ∈ list.roster.handles)
    (memory : Memory) (value : α) (panic : Panic) (b : PlainBench α) :
    insert memory place value ⟨list, s⟩ ≠ .error panic b := by
  rcases Roster.gap_found live with ⟨front, back, gap⟩
  rw [insert_apply, gap]
  dsimp only
  cases list.roster.reserveSlot memory <;> nofun

theorem delete_found (live : handle ∈ list.roster.handles) {panic : Panic} {b : PlainBench α}
    (ended : delete handle ⟨list, s⟩ = .error panic b) : allowed panic := by
  rcases locate_of_mem live with ⟨front, value, back, split⟩
  rw [delete_apply, split] at ended
  dsimp only at ended
  cases installed : list.hooks.free with
  | none =>
    rw [installed] at ended
    cases ended
  | some hook =>
    rw [installed] at ended
    dsimp only at ended
    cases freeing : Session.free (some hook) value s with
    | ok done t =>
      rw [freeing] at ended
      cases ended
    | error e t =>
      rw [freeing] at ended
      cases ended
      exact Session.free_raises hooked _ _ s _ t freeing

variable [BEq α] [Outlined α] [Stored α] {op : ListOp α}

omit hooked in
theorem perform_missing (needs : op.needs? = some handle) (dead : handle ∉ list.roster.handles) :
    perform op ⟨list, s⟩ = .error (.fault (list.roster.missing handle)) ⟨list, s⟩ := by
  cases op with
  | insert memory place value =>
    have gap := Roster.gap_missing needs dead
    rw [perform, bind_apply, insert_apply, gap]
  | delete other =>
    cases needs
    have absent := locate_eq_none_iff.mpr dead
    rw [perform, bind_apply, delete_apply, absent]
  | _ => cases needs

/-- Only a hook cuts an operation short that finds the node it needs. -/
theorem perform_found (live : ∀ handle, op.needs? = some handle → handle ∈ list.roster.handles)
    {panic : Panic} {b : PlainBench α} (ended : perform op ⟨list, s⟩ = .error panic b) :
    allowed panic := by
  have of_raises {act : Act (PlainBench α) (Answer α)} (raises : Raises allowed act)
      (same : perform op = act) : allowed panic := by
    rw [same] at ended
    exact raises _ panic b ended
  cases op with
  | insert memory place value =>
    rw [perform, bind_apply] at ended
    cases run : insert memory place value ⟨list, s⟩ with
    | ok placed c =>
      rw [run] at ended
      cases ended
    | error e c => exact (insert_found live memory value e c run).elim
  | delete handle =>
    rw [perform, bind_apply] at ended
    cases run : delete handle ⟨list, s⟩ with
    | ok value c =>
      rw [run] at ended
      cases ended
    | error e c =>
      rw [run] at ended
      cases ended
      exact delete_found hooked (live handle rfl) run
  | length => exact of_raises (.bind .get fun _ => .pure _) rfl
  | describeHooks => exact of_raises (.bind .get fun _ => .pure _) rfl
  | setHooks policies => exact of_raises (.bind (.modify _) fun _ => .pure _) rfl
  | setDup policy => exact of_raises (.bind (.modify _) fun _ => .pure _) rfl
  | setFree policy => exact of_raises (.bind (.modify _) fun _ => .pure _) rfl
  | setMatching policy => exact of_raises (.bind (.modify _) fun _ => .pure _) rfl
  | reserve memory count => exact of_raises (.bind (reserve_raises memory count) fun _ => .pure _) rfl
  | popFront => exact of_raises (.bind (edit_raises popFront_total) fun _ => .pure _) rfl
  | popBack => exact of_raises (.bind (edit_raises popBack_total) fun _ => .pure _) rfl
  | empty => exact of_raises (.bind (empty_raises hooked) fun _ => .pure _) rfl
  | front => exact of_raises (.bind .get fun _ => .pure _) rfl
  | back => exact of_raises (.bind .get fun _ => .pure _) rfl
  | head => exact of_raises (.bind .get fun _ => .pure _) rfl
  | tail => exact of_raises (.bind .get fun _ => .pure _) rfl
  | get handle => exact of_raises (.bind .get fun _ => .pure _) rfl
  | next handle => exact of_raises (.bind .get fun _ => .pure _) rfl
  | prev handle => exact of_raises (.bind .get fun _ => .pure _) rfl
  | index position => exact of_raises (.bind .get fun _ => .pure _) rfl
  | updateFront change => exact of_raises (.bind (edit_raises fun _ => ⟨_, _, rfl⟩) fun _ => .pure _) rfl
  | updateBack change => exact of_raises (.bind (edit_raises fun _ => ⟨_, _, rfl⟩) fun _ => .pure _) rfl
  | update handle change => exact of_raises (.bind (edit_raises fun _ => ⟨_, _, rfl⟩) fun _ => .pure _) rfl
  | rotateTailToHead => exact of_raises (.bind (edit_raises fun _ => ⟨_, _, rfl⟩) fun _ => .pure _) rfl
  | rotateHeadToTail => exact of_raises (.bind (edit_raises fun _ => ⟨_, _, rfl⟩) fun _ => .pure _) rfl
  | search key => exact of_raises (.bind (search_raises hooked key) fun _ => .pure _) rfl
  | searchWithHook key =>
    exact of_raises (.bind (searchWithHook_raises hooked key) fun _ => .pure _) rfl
  | walkHandles steps => exact of_raises (.bind .get fun _ => .pure _) rfl
  | walkValues steps => exact of_raises (.bind .get fun _ => .pure _) rfl
  | walkUpdating changes steps => exact of_raises (.bind (edit_raises fun _ => ⟨_, _, rfl⟩) fun _ => .pure _) rfl
  | render layout => exact of_raises (.bind .get fun _ => .pure _) rfl

end PlainBench

namespace PlainList

variable {list : PlainList α}

theorem release_raises : Raises Panic.Sound list.release := by
  have clearing : Raises Panic.Sound (PlainBench.clear (α := α)) :=
    PlainBench.clear_raises fun _ => trivial
  have raises : Raises Panic.Sound (PlainBench.release (α := α)) := by
    refine .bind .get fun _ => .bind (PlainBench.share_raises (.modify _)) fun _ => ?_
    intro s panic b ended
    rw [tryCatch_apply] at ended
    cases first : PlainBench.clear s with
    | ok done t =>
      rw [first] at ended
      cases ended
    | error e t =>
      rw [first] at ended
      have again : Raises Panic.Sound (do
          tryCatch PlainBench.clear fun _ => throw .abort
          throw e : Act (PlainBench α) Unit) :=
        .bind (.tryCatch fun _ => .throw trivial) fun _ => .throw (clearing s e t first)
      exact again t panic b ended
  intro s panic t ended
  unfold release at ended
  cases run : PlainBench.release ⟨list, s⟩ with
  | ok done b =>
    rw [run] at ended
    cases ended
  | error e b =>
    rw [run] at ended
    cases ended
    exact raises _ _ b run

theorem drop_raises : Raises Panic.Sound list.drop :=
  Session.freeAll_raises (fun _ => trivial) _ _

variable [Stored α]

theorem withRoom_raises (memory : Memory) (count : Nat) :
    Raises Panic.Sound (withRoom memory count : Act (Session α) _) := by
  unfold withRoom
  cases (Roster.empty : Roster α).reserve memory count with
  | ok q => exact .pure _
  | error shortage => exact .bind (.bind (.modify _) fun _ => .pure _) fun _ => .pure _

theorem duplicateBy_raises (memory : Memory) (hook? : Option (DupHook α)) :
    Raises Panic.Sound (list.duplicateBy memory hook?) := by
  intro s panic t ended
  unfold duplicateBy at ended
  cases room : (Roster.empty : Roster α).reserve memory list.roster.entries.length with
  | error shortage =>
    rw [room] at ended
    cases ended
  | ok grown =>
    rw [room] at ended
    dsimp only at ended
    cases run : PlainBench.appendCopies hook? list.roster.values ⟨⟨grown, list.hooks⟩, s⟩ with
    | ok copied b =>
      rw [run] at ended
      cases copied with
      | ok done => cases ended
      | error e =>
        have ending : Raises Panic.Sound (do b.list.drop; return .error e :
            Act (Session α) (Except ListError (PlainList α))) := .bind drop_raises fun _ => .pure _
        exact ending _ _ _ ended
    | error e b =>
      rw [run] at ended
      have sound : e.Sound :=
        PlainBench.appendCopies_raises (fun _ => trivial) hook? list.roster.values _ _ _ run
      have ending : Raises Panic.Sound (do b.list.dropUnwinding; throw e :
          Act (Session α) (Except ListError (PlainList α))) :=
        .bind (.tryCatch fun _ => .throw trivial) fun _ => .throw sound
      exact ending _ _ _ ended

theorem duplicateWithHook_raises (memory : Memory) :
    Raises Panic.Sound (list.duplicateWithHook memory) := by
  unfold duplicateWithHook
  cases list.hooks.dup with
  | none => exact .bind (.modify _) fun _ => .pure _
  | some hook => exact duplicateBy_raises memory (some hook)

end PlainList

end LinkedSlots
