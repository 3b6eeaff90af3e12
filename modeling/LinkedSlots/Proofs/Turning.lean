import LinkedSlots.Proofs.Turns

namespace LinkedSlots

variable {α β : Type}

namespace Roster

variable {q : Roster α} {handle : Handle}

def changeAt (handle : Handle) (change : α → α) (entries : List (Handle × α)) : List (Handle × α) :=
  entries.map fun entry => (entry.1, if handle = entry.1 then change entry.2 else entry.2)

theorem changeAt_absent {entries : List (Handle × α)} (absent : handle ∉ entries.map Prod.fst)
    (change : α → α) : changeAt handle change entries = entries := by
  have same : ∀ entry ∈ entries,
      (entry.1, if handle = entry.1 then change entry.2 else entry.2) = id entry := by
    intro entry member
    have ne : handle ≠ entry.1 := fun same => absent (same ▸ List.mem_map_of_mem member)
    rw [if_neg ne]
    rfl
  exact (List.map_congr_left same).trans (List.map_id _)

theorem changeAt_middle {front back : List (Handle × α)} {value : α}
    (nodup : ((front ++ (handle, value) :: back).map Prod.fst).Nodup) (change : α → α) :
    changeAt handle change (front ++ (handle, value) :: back) =
      front ++ (handle, change value) :: back := by
  have before := outside_front nodup
  rw [List.map_append, List.map_cons] at nodup
  have behind := (List.nodup_cons.mp (List.nodup_append.mp nodup).2.1).1
  have split : changeAt handle change (front ++ (handle, value) :: back) =
      changeAt handle change front ++ (handle, change value) :: changeAt handle change back := by
    unfold changeAt
    rw [List.map_append, List.map_cons, if_pos rfl]
  rw [split, changeAt_absent before, changeAt_absent behind]

theorem update_changes (proper : q.Proper) (handle : Handle) (change : α → α) :
    (q.update handle change).2 = q.withEntries (changeAt handle change q.entries) := by
  unfold Roster.update
  cases place : locate handle q.entries with
  | none =>
    rw [changeAt_absent (locate_eq_none_iff.mp place)]
    rfl
  | some split =>
    rcases split with ⟨front, value, back⟩
    have entries := locate_eq_some place
    have nodup := proper.handles_nodup
    rw [handles, entries] at nodup
    rw [entries, changeAt_middle nodup]

theorem updateFront_changes (proper : q.Proper) (change : α → α) :
    (q.updateFront change).2 = q.withEntries (q.entries.map fun entry =>
      (entry.1, ListOp.rewrite q.handles entry.1 (.updateFront change) entry.2)) := by
  unfold Roster.updateFront
  cases entries : q.entries with
  | nil => exact congrArg q.withEntries entries
  | cons entry back =>
    rcases entry with ⟨handle, value⟩
    have nodup := proper.handles_nodup
    rw [handles, entries, ← List.nil_append (_ :: _)] at nodup
    have changed := changeAt_middle nodup change
    simpa [changeAt, ListOp.rewrite, handles, entries] using congrArg q.withEntries changed.symm

theorem updateBack_changes (proper : q.Proper) (change : α → α) :
    (q.updateBack change).2 = q.withEntries (q.entries.map fun entry =>
      (entry.1, ListOp.rewrite q.handles entry.1 (.updateBack change) entry.2)) := by
  unfold Roster.updateBack
  rcases List.eq_nil_or_concat' q.entries with entries | ⟨front, ⟨handle, value⟩, entries⟩
  · rw [entries]
    exact congrArg q.withEntries entries
  · have nodup := proper.handles_nodup
    rw [handles, entries] at nodup
    have changed := changeAt_middle nodup change
    rw [entries]
    simpa [changeAt, ListOp.rewrite, handles, entries] using congrArg q.withEntries changed.symm

theorem walkUpdating_changes (changes : Changes α) (steps : List WalkStep) :
    q.entries.map (touch changes ((WalkStep.answers steps q.entries).flatMap WalkAnswer.given)) =
      q.entries.map fun entry =>
        (entry.1, ListOp.rewrite q.handles entry.1 (.walkUpdating changes steps) entry.2) := by
  have given : (WalkStep.answers steps q.handles).flatMap WalkAnswer.given =
      ((WalkStep.answers steps q.entries).flatMap WalkAnswer.given).map Prod.fst :=
    WalkStep.given_map Prod.fst steps q.entries
  apply List.map_congr_left
  intro entry member
  simp only [touch, ListOp.rewrite, given]

end Roster

namespace PlainBench

variable {list : PlainList α} {s : Session α}

theorem share_still (act : Act (Session α) β) : Keeps (fun b => b.list.roster) (share act) := by
  rintro ⟨list, s⟩
  rw [share_apply]
  cases act s <;> rfl

theorem install_still (change : HookSet α → Ledger α → HookSet α × Ledger α) :
    Keeps (fun b => b.list.roster) (install change) :=
  fun _ => rfl

variable [BEq α]

theorem search_still (key : α) : Keeps (fun b => b.list.roster) (search key) := by
  apply Keeps.get.bind
  intro b
  dsimp only
  cases b.list.hooks.matching with
  | none => exact share_still _
  | some hook => exact share_still _

omit [BEq α] in
theorem searchWithHook_still (key : α) : Keeps (fun b => b.list.roster) (searchWithHook key) := by
  apply Keeps.get.bind
  intro b
  dsimp only
  cases b.list.hooks.matching with
  | none => exact .pure none
  | some hook => exact share_still _

def reported (run : EStateM.Result Panic (PlainBench α) (Answer α)) : Report α :=
  ⟨.of run, (ending run).session.calls, (ending run).session.log⟩

variable {name : String} {op : ListOp α} [Outlined α] [Stored α]

omit [BEq α] [Outlined α] [Stored α] in
theorem quiet_on (quiet : op.Quiet) : (Op.on name op).Quiet name := by
  constructor
  · intro order handle value
    rw [Op.rewrite_on, quiet.kept]
  · exact fun turned => quiet.unturned turned.2

theorem delete_left (handle : Handle) (list : PlainList α) (s : Session α) :
    (ending (perform (.delete handle) ⟨list, s⟩)).list.roster =
      match locate handle list.roster.entries with
      | none => list.roster
      | some (front, _, back) => list.roster.takeOut front handle back := by
  rw [perform, bind_apply, delete_apply]
  cases locate handle list.roster.entries with
  | none => rfl
  | some split =>
    rcases split with ⟨front, value, back⟩
    dsimp only
    cases list.hooks.free with
    | none => rfl
    | some hook =>
      dsimp only
      cases Session.free (some hook) value s <;> rfl

theorem still_turn (quiet : op.Quiet) (keeps : Keeps (fun b => b.list.roster) (perform op)) :
    Turn name (.on name op) (reported (perform op ⟨list, s⟩)) list.roster
      (ending (perform op ⟨list, s⟩)).list.roster := by
  have same : (ending (perform op ⟨list, s⟩)).list.roster = list.roster := keeps ⟨list, s⟩
  rw [same]
  exact .still (quiet_on quiet)

/-- Every operation on a list is a turn of its roster. -/
theorem perform_turn (proper : list.roster.Proper) (fresh : s.calls = []) (op : ListOp α) :
    Turn name (.on name op) (reported (perform op ⟨list, s⟩)) list.roster
      (ending (perform op ⟨list, s⟩)).list.roster := by
  cases op with
  | length => exact still_turn ⟨fun _ _ _ => rfl, id⟩ (Keeps.get.bind fun _ => .pure _)
  | describeHooks => exact still_turn ⟨fun _ _ _ => rfl, id⟩ (Keeps.get.bind fun _ => .pure _)
  | setHooks policies =>
    exact still_turn ⟨fun _ _ _ => rfl, id⟩ ((install_still _).bind fun _ => .pure _)
  | setDup policy =>
    exact still_turn ⟨fun _ _ _ => rfl, id⟩ ((install_still _).bind fun _ => .pure _)
  | setFree policy =>
    exact still_turn ⟨fun _ _ _ => rfl, id⟩ ((install_still _).bind fun _ => .pure _)
  | setMatching policy =>
    exact still_turn ⟨fun _ _ _ => rfl, id⟩ ((install_still _).bind fun _ => .pure _)
  | front => exact still_turn ⟨fun _ _ _ => rfl, id⟩ (Keeps.get.bind fun _ => .pure _)
  | back => exact still_turn ⟨fun _ _ _ => rfl, id⟩ (Keeps.get.bind fun _ => .pure _)
  | head => exact still_turn ⟨fun _ _ _ => rfl, id⟩ (Keeps.get.bind fun _ => .pure _)
  | tail => exact still_turn ⟨fun _ _ _ => rfl, id⟩ (Keeps.get.bind fun _ => .pure _)
  | get handle => exact still_turn ⟨fun _ _ _ => rfl, id⟩ (Keeps.get.bind fun _ => .pure _)
  | next handle => exact still_turn ⟨fun _ _ _ => rfl, id⟩ (Keeps.get.bind fun _ => .pure _)
  | prev handle => exact still_turn ⟨fun _ _ _ => rfl, id⟩ (Keeps.get.bind fun _ => .pure _)
  | index position => exact still_turn ⟨fun _ _ _ => rfl, id⟩ (Keeps.get.bind fun _ => .pure _)
  | search key =>
    exact still_turn ⟨fun _ _ _ => rfl, id⟩ ((search_still key).bind fun _ => .pure _)
  | searchWithHook key =>
    exact still_turn ⟨fun _ _ _ => rfl, id⟩ ((searchWithHook_still key).bind fun _ => .pure _)
  | walkHandles steps => exact still_turn ⟨fun _ _ _ => rfl, id⟩ (Keeps.get.bind fun _ => .pure _)
  | walkValues steps => exact still_turn ⟨fun _ _ _ => rfl, id⟩ (Keeps.get.bind fun _ => .pure _)
  | render layout => exact still_turn ⟨fun _ _ _ => rfl, id⟩ (Keeps.get.bind fun _ => .pure _)
  | reserve memory count =>
    rw [perform, bind_apply, reserve_apply]
    cases granted : list.roster.reserve memory count with
    | ok grown => exact .widened granted
    | error shortage => exact .still (quiet_on ⟨fun _ _ _ => rfl, id⟩)
  | insert memory place value =>
    rw [perform, bind_apply, insert_apply]
    cases gap : list.roster.gap place with
    | error cause => exact .still (quiet_on ⟨fun _ _ _ => rfl, id⟩)
    | ok halves =>
      rcases halves with ⟨front, back⟩
      dsimp only
      cases granted : list.roster.reserveSlot memory with
      | ok grown => exact .inserted gap granted rfl
      | error shortage => exact .still (quiet_on ⟨fun _ _ _ => rfl, id⟩)
  | delete handle =>
    have left := delete_left handle list s
    cases place : locate handle list.roster.entries with
    | none =>
      rw [perform, bind_apply, delete_apply, place]
      exact .still (quiet_on ⟨fun _ _ _ => rfl, id⟩)
    | some split =>
      rcases split with ⟨front, value, back⟩
      rw [place] at left
      rw [left]
      exact .deleted (locate_eq_some place)
  | popFront =>
    rw [perform, bind_apply, edit_apply]
    unfold Roster.popFront
    cases entries : list.roster.entries with
    | nil => exact .still (quiet_on ⟨fun _ _ _ => rfl, id⟩)
    | cons entry back => exact .poppedFront entries
  | popBack =>
    rw [perform, bind_apply, edit_apply]
    unfold Roster.popBack
    rcases List.eq_nil_or_concat' list.roster.entries with entries | ⟨front, last, entries⟩
    · rw [entries]
      exact .still (quiet_on ⟨fun _ _ _ => rfl, id⟩)
    · have found : list.roster.entries.getLast? = some last := by simp [entries]
      have before : list.roster.entries.dropLast = front := by simp [entries]
      rw [found, before]
      exact .poppedBack entries
  | empty =>
    rw [perform, bind_apply, empty_apply]
    cases Session.freeAll list.hooks.free list.roster.values
        (s.noted (.emptying list.roster.entries.length)) with
    | ok done t => exact .emptied rfl
    | error panic t =>
      -- No call was counted before, so the calls are those of this clearing.
      dsimp only
      rw [fresh]
      exact .interrupted rfl
  | updateFront change =>
    have turn : Turn name (.on name (.updateFront change))
        (reported (perform (.updateFront change) ⟨list, s⟩)) list.roster _ := .rewritten id
    rw [← Roster.updateFront_changes proper change] at turn
    exact turn
  | updateBack change =>
    have turn : Turn name (.on name (.updateBack change))
        (reported (perform (.updateBack change) ⟨list, s⟩)) list.roster _ := .rewritten id
    rw [← Roster.updateBack_changes proper change] at turn
    exact turn
  | update handle change =>
    have turn : Turn name (.on name (.update handle change))
        (reported (perform (.update handle change) ⟨list, s⟩)) list.roster
        (list.roster.withEntries (Roster.changeAt handle change list.roster.entries)) := .rewritten id
    rw [← Roster.update_changes proper handle change] at turn
    exact turn
  | walkUpdating changes steps =>
    have turn : Turn name (.on name (.walkUpdating changes steps))
        (reported (perform (.walkUpdating changes steps) ⟨list, s⟩)) list.roster _ := .rewritten id
    rw [← Roster.walkUpdating_changes changes steps] at turn
    exact turn
  | rotateTailToHead => exact .rotatedTail
  | rotateHeadToTail => exact .rotatedHead

end PlainBench

def Makes (run : EStateM.Result Panic (Session α) (Except ListError β)) : Prop :=
  ∃ made t, run = .ok (.ok made) t

namespace PlainStore

variable {p : PlainStore α} {name target : String} {list : PlainList α}

def Ends [Stored α] (p : PlainStore α) (name : String) : Op α → Prop
  | .create target _ => target = name
  | .createWithRoom target memory count =>
    target = name ∧ Makes (PlainList.withRoom memory count p.session)
  | .duplicate source target memory =>
    target = name ∧ ∃ list, p.lists.find? source = some list ∧ Makes (list.duplicate memory p.session)
  | .duplicateWithHook source target memory =>
    target = name ∧
      ∃ list, p.lists.find? source = some list ∧ Makes (list.duplicateWithHook memory p.session)
  | .walkTaking target _ => target = name
  | .release target => target = name
  | .drop target => target = name
  | _ => False

theorem keep_other {made : EStateM.Result Panic (Session α) (Except ListError (PlainList α))}
    (stays : ¬ (target = name ∧ Makes made)) :
    (p.keep target made).2.lists.find? name = p.lists.find? name := by
  rcases made with ⟨_ | list, session⟩ | ⟨panic, session⟩
  · rfl
  · have ne : name ≠ target := fun same => stays ⟨same.symm, list, session, rfl⟩
    show (p.replace target list session).2.lists.find? name = _
    rw [replace_lists]
    exact p.lists.find?_put_of_ne list ne
  · rfl

theorem duplicate_other {source : String}
    {copy : PlainList α → Act (Session α) (Except ListError (PlainList α))}
    (stays : ¬ (target = name ∧ ∃ list, p.lists.find? source = some list ∧ Makes (copy list p.session))) :
    (p.duplicate source target copy).2.lists.find? name = p.lists.find? name := by
  unfold duplicate
  cases found : p.lists.find? source with
  | none => rfl
  | some list => exact keep_other fun ⟨same, made⟩ => stays ⟨same, list, found, made⟩

theorem retire_other {act : PlainList α → Act (Session α) (Answer α)} (ne : target ≠ name) :
    (p.retire target act).2.lists.find? name = p.lists.find? name := by
  unfold retire
  cases p.lists.find? target with
  | none => rfl
  | some list =>
    dsimp only
    rw [conclude_lists]
    exact p.lists.find?_erase_of_ne (Ne.symm ne)

variable [BEq α] [Outlined α] [Stored α]

theorem step_reported (found : p.lists.find? name = some list) (op : ListOp α) :
    p.step (.on name op) =
      let run := PlainBench.perform op ⟨list, p.session⟩
      (PlainBench.reported run, ⟨p.lists.put name (ending run).list, (ending run).session.ledger⟩) := by
  rw [step_on found]
  cases PlainBench.perform op ⟨list, p.session⟩ <;> rfl

def Turns (p : PlainStore α) (name : String) (list : PlainList α) (op : Op α) : Prop :=
  ∃ after, (p.step op).2.lists.find? name = some after ∧
    Turn name op (p.step op).1 list.roster after.roster

theorem turns_unmoved {op : Op α} (found : p.lists.find? name = some list) (quiet : op.Quiet name)
    (same : (p.step op).2.lists.find? name = p.lists.find? name) : p.Turns name list op :=
  ⟨list, same.trans found, .still quiet⟩

theorem on_turns (found : p.lists.find? name = some list) (proper : list.roster.Proper)
    (target : String) (op : ListOp α) : p.Turns name list (.on target op) := by
  by_cases here : target = name
  · subst here
    unfold Turns
    rw [step_reported found]
    exact ⟨_, p.lists.find?_put_self target _, PlainBench.perform_turn proper rfl op⟩
  · have quiet : (Op.on target op).Quiet name := ⟨fun _ _ _ => if_neg here, fun turned => here turned.1⟩
    apply turns_unmoved found quiet
    cases other : p.lists.find? target with
    | none =>
      rw [step_on_absent other]
      rfl
    | some list =>
      rw [step_reported other]
      exact p.lists.find?_put_of_ne _ (Ne.symm here)

theorem shareHooks_turns (found : p.lists.find? name = some list) (target source : String) :
    p.Turns name list (.shareHooks target source) := by
  rcases p.pair_cases target source with refused | ⟨first, other, -, found', -, act⟩
  · apply turns_unmoved found ⟨fun _ _ _ => rfl, id⟩
    show (p.pair target source _).2.lists.find? name = _
    rw [refused]
    rfl
  · have step : (p.step (.shareHooks target source)).2.lists =
        p.lists.put target { first with hooks := other.hooks } := by
      show (p.pair target source _).2.lists = _
      rw [act]
      rfl
    by_cases here : name = target
    · subst here
      rw [found] at found'
      cases found'
      have stored : (p.step (.shareHooks name source)).2.lists.find? name =
          some { list with hooks := other.hooks } := by
        rw [step]
        exact p.lists.find?_put_self name _
      exact ⟨_, stored, .still ⟨fun _ _ _ => rfl, id⟩⟩
    · apply turns_unmoved found ⟨fun _ _ _ => rfl, id⟩
      rw [step]
      exact p.lists.find?_put_of_ne _ here

theorem join_turns (found : p.lists.find? name = some list) (target source : String)
    (memory : Memory) : p.Turns name list (.join target source memory) := by
  rcases p.pair_cases target source with refused | ⟨first, other, ne, found', found'', -⟩
  · apply turns_unmoved found ⟨fun _ _ _ => rfl, id⟩
    show (p.pair target source _).2.lists.find? name = _
    rw [refused]
    rfl
  · have step := join_ends ne found' found'' memory
    cases granted : first.roster.reserve memory other.roster.entries.length with
    | error shortage =>
      apply turns_unmoved found ⟨fun _ _ _ => rfl, id⟩
      rw [granted] at step
      rw [step]
      have second : (p.lists.put target first).find? source = some other := by
        rw [Registry.find?_put_same found', found'']
      exact (Registry.find?_put_same second name).trans (Registry.find?_put_same found' name)
    | ok grown =>
      rw [granted] at step
      unfold Turns
      by_cases emptied : name = source
      · subst emptied
        rw [found] at found''
        cases found''
        rw [step]
        exact ⟨_, Registry.find?_put_self _ name _, .forgotten rfl⟩
      · by_cases here : name = target
        · subst here
          rw [found] at found'
          cases found'
          rw [← other.roster.values_length] at granted
          rw [step]
          refine ⟨⟨grown.pushAll other.roster.values, list.hooks⟩, ?_, .joined granted⟩
          exact (Registry.find?_put_of_ne _ _ emptied).trans (p.lists.find?_put_self name _)
        · apply turns_unmoved found ⟨fun _ _ _ => rfl, id⟩
          rw [step]
          exact (Registry.find?_put_of_ne _ _ emptied).trans (p.lists.find?_put_of_ne _ here)

/-- A list that an operation does not end lives on. -/
theorem step_turns (found : p.lists.find? name = some list) (proper : list.roster.Proper) {op : Op α}
    (stays : ¬ p.Ends name op) : p.Turns name list op := by
  cases op with
  | create target policies =>
    apply turns_unmoved found ⟨fun _ _ _ => rfl, id⟩
    show (p.replace target _ _).2.lists.find? name = _
    rw [replace_lists]
    exact p.lists.find?_put_of_ne _ (Ne.symm stays)
  | createWithRoom target memory count =>
    exact turns_unmoved found ⟨fun _ _ _ => rfl, id⟩ (keep_other stays)
  | on target op => exact on_turns found proper target op
  | shareHooks target source => exact shareHooks_turns found target source
  | join target source memory => exact join_turns found target source memory
  | duplicate source target memory =>
    exact turns_unmoved found ⟨fun _ _ _ => rfl, id⟩ (duplicate_other stays)
  | duplicateWithHook source target memory =>
    exact turns_unmoved found ⟨fun _ _ _ => rfl, id⟩ (duplicate_other stays)
  | walkTaking target steps =>
    exact turns_unmoved found ⟨fun _ _ _ => rfl, id⟩ (retire_other stays)
  | release target => exact turns_unmoved found ⟨fun _ _ _ => rfl, id⟩ (retire_other stays)
  | drop target => exact turns_unmoved found ⟨fun _ _ _ => rfl, id⟩ (retire_other stays)

end PlainStore

end LinkedSlots
