import LinkedSlots.Proofs.Complaining
import LinkedSlots.Proofs.Ownership
import LinkedSlots.Value.Policy
import Mathlib

namespace LinkedSlots

variable {α β : Type} {kind : LogEntry → Prop}

def Answer.error? : Answer α → Option ListError
  | .failed e => some e
  | .rejected e => some e.toListError
  | _ => none

def Report.logged (report : Report α) (level : String) : List LogEntry :=
  report.log.filter fun entry => entry.level = level

def Op.complaints : Op α → LogEntry → Prop
  | .duplicate _ _ _ => LogEntry.OfCopying
  | .duplicateWithHook _ _ _ => LogEntry.OfCopying
  | _ => LogEntry.OfShortage

def Report.Logs (kind : LogEntry → Prop) (announced : List LogEntry) (report : Report α) : Prop :=
  ∃ entries, report.log = announced ++ entries ∧
    match report.outcome with
    | .returned answer => Tells kind answer.error? entries
    | _ => ∃ told, Tells kind told entries

namespace Workbench

open HookedList

/-- Where nothing but the answer is left to be made, only an error of its own would be told. -/
theorem answer_complains {act : Act (Workbench α) β} (silent : Keeps log act) {answer : β → Answer α}
    (fine : ∀ result, (answer result).error? = none) :
    Complains kind log Answer.error? (do return answer (← act)) := by
  have quiet : Complains kind log (fun _ => none) act := .of_keeps silent fun _ => rfl
  exact quiet.map fine

theorem consume_complains {act : Act (Workbench α) (Answer α)}
    (complains : Complains kind log Answer.error? act) (list : HookedList α) :
    Complains kind Session.log Answer.error? (consume act list) := by
  intro s
  obtain ⟨entries, logged, told⟩ := complains ⟨list, s⟩
  unfold consume
  cases run : act ⟨list, s⟩ with
  | ok answer b =>
    rw [run] at logged told
    exact ⟨entries, logged, told⟩
  | error panic b =>
    rw [run] at logged told
    exact ⟨entries, logged, told⟩

variable [BEq α] [Outlined α] [Stored α]

theorem perform_complains (allows : ∀ shortage, kind (.allocationFailed shortage)) (op : ListOp α)
    (speaks : op ≠ .empty) : Complains kind log Answer.error? (perform op) := by
  cases op with
  | empty => exact (speaks rfl).elim
  | reserve memory count =>
    apply (reserve_complains allows memory count).map
    rintro (e | done) <;> rfl
  | insert memory place value =>
    apply (insert_complains allows memory place value).map
    rintro (e | done) <;> rfl
  | length => exact answer_complains .get fun _ => rfl
  | describeHooks => exact answer_complains .get fun _ => rfl
  | setHooks policies =>
    have silent : Keeps log (HookedList.setHooks (α := α) policies) := fun _ => rfl
    exact answer_complains silent fun _ => rfl
  | setDup policy =>
    have silent : Keeps log (HookedList.setDup (α := α) policy) := fun _ => rfl
    exact answer_complains silent fun _ => rfl
  | setFree policy =>
    have silent : Keeps log (HookedList.setFree (α := α) policy) := fun _ => rfl
    exact answer_complains silent fun _ => rfl
  | setMatching policy =>
    have silent : Keeps log (HookedList.setMatching (α := α) policy) := fun _ => rfl
    exact answer_complains silent fun _ => rfl
  | delete handle => exact answer_complains (delete_silent handle) fun _ => rfl
  | popFront => exact answer_complains (edit_silent _) fun _ => rfl
  | popBack => exact answer_complains (edit_silent _) fun _ => rfl
  | front => exact answer_complains (inspect_silent _) fun _ => rfl
  | back => exact answer_complains (inspect_silent _) fun _ => rfl
  | head => exact answer_complains .get fun _ => rfl
  | tail => exact answer_complains .get fun _ => rfl
  | get handle => exact answer_complains .get fun _ => rfl
  | next handle => exact answer_complains .get fun _ => rfl
  | prev handle => exact answer_complains .get fun _ => rfl
  | index position => exact answer_complains (inspect_silent _) fun _ => rfl
  | updateFront change => exact answer_complains (edit_silent _) fun _ => rfl
  | updateBack change => exact answer_complains (edit_silent _) fun _ => rfl
  | update handle change => exact answer_complains (edit_silent _) fun _ => rfl
  | rotateTailToHead => exact answer_complains (edit_silent _) fun _ => rfl
  | rotateHeadToTail => exact answer_complains (edit_silent _) fun _ => rfl
  | search key => exact answer_complains (search_silent key) fun _ => rfl
  | searchWithHook key => exact answer_complains (searchWithHook_silent key) fun _ => rfl
  | walkHandles steps => exact answer_complains (inspect_silent _) fun _ => rfl
  | walkValues steps => exact answer_complains (inspect_silent _) fun _ => rfl
  | walkUpdating changes steps => exact answer_complains (edit_silent _) fun _ => rfl
  | render layout => exact answer_complains (inspect_silent _) fun _ => rfl

end Workbench

namespace Store

variable {s : Store α} {name : String}

theorem refuse_logs (s : Store α) : s.refuse.1.Logs kind [] := ⟨[], rfl, none, .nothing⟩

theorem conclude_logs (lists : Registry String (HookedList α)) {act : Act (Session α) (Answer α)}
    (complains : Complains kind Session.log Answer.error? act) (session : Session α) :
    (conclude lists (act session)).1.Logs kind session.log := by
  obtain ⟨entries, logged, told⟩ := complains session
  cases run : act session with
  | ok answer t =>
    rw [run] at logged told
    exact ⟨entries, logged, told⟩
  | error panic t =>
    rw [run] at logged told
    exact ⟨entries, logged, told⟩

/-- The list that is dropped adds nothing to the log. -/
theorem replace_logs (list : HookedList α) (session : Session α) :
    (s.replace name list session).1.Logs kind session.log := by
  unfold replace
  cases s.lists.find? name with
  | none => exact ⟨[], (List.append_nil _).symm, .nothing⟩
  | some old =>
    have quiet : Complains kind Session.log (fun _ => none) (HookedList.drop old) :=
      .of_keeps (HookedList.drop_silent old) fun _ => rfl
    have answered : Complains kind Session.log Answer.error?
        (do HookedList.drop old; return .done : Act _ (Answer α)) := quiet.map fun _ => rfl
    exact conclude_logs _ answered session

theorem keep_logs {act : Act (Session α) (Except ListError (HookedList α))}
    (complains : Complains kind Session.log errorOf act) :
    (s.keep name (act s.session)).1.Logs kind [] := by
  obtain ⟨entries, logged, told⟩ := complains s.session
  rcases run : act s.session with ⟨e | list, t⟩ | ⟨panic, t⟩
  · rw [run] at logged told
    exact ⟨entries, logged, told⟩
  · rw [run] at logged told
    have silent : t.log = [] := by
      rw [show t.log = _ from logged, told.silent]
      rfl
    rw [← silent]
    exact replace_logs list t
  · rw [run] at logged told
    exact ⟨entries, logged, told⟩

/-- Work on a bench that has logged something already. -/
theorem ended_logs {act : Act (Workbench α) (Answer α)}
    (complains : Complains kind Workbench.log Answer.error? act) (b : Workbench α) :
    Report.Logs kind b.log <| Prod.fst <|
      match act b with
      | .ok answer b => conclude (s.lists.put name b.list) (.ok answer b.session)
      | .error panic b => conclude (s.lists.put name b.list) (.error panic b.session) := by
  obtain ⟨entries, logged, told⟩ := complains b
  cases run : act b with
  | ok answer b =>
    rw [run] at logged told
    exact ⟨entries, logged, told⟩
  | error panic b =>
    rw [run] at logged told
    exact ⟨entries, logged, told⟩

theorem work_logs {act : Act (Workbench α) (Answer α)}
    (complains : Complains kind Workbench.log Answer.error? act) : (s.work name act).1.Logs kind [] := by
  unfold work
  cases s.lists.find? name with
  | none => exact refuse_logs s
  | some list => exact ended_logs complains ⟨list, s.session⟩

theorem duplicate_logs {source : String}
    {copy : HookedList α → Act (Session α) (Except ListError (HookedList α))}
    (complains : ∀ list, s.lists.find? source = some list →
      Complains kind Session.log errorOf (copy list)) :
    (s.duplicate source name copy).1.Logs kind [] := by
  unfold duplicate
  cases found : s.lists.find? source with
  | none => exact refuse_logs s
  | some list => exact keep_logs (complains list found)

theorem retire_logs {act : Act (Workbench α) (Answer α)}
    (complains : Complains kind Workbench.log Answer.error? act) : (s.retire name act).1.Logs kind [] := by
  unfold retire
  cases s.lists.find? name with
  | none => exact refuse_logs s
  | some list => exact conclude_logs _ (Workbench.consume_complains complains list) s.session

theorem shareHooks_logs (name source : String) : (s.shareHooks name source).1.Logs kind [] := by
  unfold shareHooks pair
  split
  · exact refuse_logs s
  split
  · exact ⟨[], rfl, .nothing⟩
  · exact refuse_logs s

theorem join_logs [Stored α] (allows : ∀ shortage, kind (.allocationFailed shortage))
    (memory : Memory) (name source : String) : (s.join memory name source).1.Logs kind [] := by
  unfold join pair
  split
  · exact refuse_logs s
  split
  · next list other found found' =>
    obtain ⟨entries, logged, told⟩ :=
      HookedList.join_complains allows memory (⟨list, s.session⟩, other)
    dsimp only
    rcases run : HookedList.join memory (⟨list, s.session⟩, other) with
      ⟨e | done, both⟩ | ⟨panic, both⟩
    all_goals
      rw [run] at logged told
      exact ⟨entries, logged, told⟩
  · exact refuse_logs s

def announced (s : Store α) : Op α → List LogEntry
  | .on name .empty =>
    ((s.lists.find? name).map fun list => .emptying list.shown.values.length).toList
  | .release name => ((s.lists.find? name).map fun list => .releasing list.shown.values.length).toList
  | _ => []

theorem announced_traces (s : Store α) (op : Op α) :
    ∀ entry ∈ s.announced op, entry.level = "TRACE" := by
  intro entry member
  cases op with
  | on name op =>
    cases op with
    | empty =>
      obtain ⟨list, -, rfl⟩ := Option.map_eq_some_iff.mp (Option.mem_toList.mp member)
      rfl
    | _ => cases member
  | release name =>
    obtain ⟨list, -, rfl⟩ := Option.map_eq_some_iff.mp (Option.mem_toList.mp member)
    rfl
  | _ => cases member

def Counts (s : Store α) : Prop :=
  ∀ name list, s.lists.find? name = some list → list.chain.length = list.shown.values.length

/-- A list is announced with its length, which is that of the values it shows. -/
theorem release_logs (counts : s.Counts) (name : String) :
    (s.retire name (do HookedList.release; return .done)).1.Logs kind (s.announced (.release name)) := by
  cases found : s.lists.find? name with
  | none =>
    simp only [retire, announced, found]
    exact refuse_logs s
  | some list =>
    let later : Act (Workbench α) Unit := tryCatch HookedList.clear fun panic => do
      HookedList.clearUnwinding
      throw panic
    have silent : Keeps Workbench.log later := HookedList.clear_silent.tryCatch fun panic =>
      HookedList.clearUnwinding_silent.bind fun _ => .throw panic
    have complains :
        Complains kind Workbench.log Answer.error? (do later; return (.done : Answer α)) :=
      Workbench.answer_complains silent fun _ => rfl
    have logs := conclude_logs (s.lists.erase name) (Workbench.consume_complains complains list)
      (s.session.noted (.releasing list.chain.length))
    simp only [retire, announced, found, Option.map_some, Option.toList_some, ← counts name list found]
    exact logs

variable [BEq α] [Outlined α] [Stored α]

theorem empty_logs (counts : s.Counts) (name : String) :
    (s.step (.on name .empty)).1.Logs kind (s.announced (.on name .empty)) := by
  cases found : s.lists.find? name with
  | none =>
    simp only [step, work, announced, found]
    exact refuse_logs s
  | some list =>
    let later : Act (Workbench α) (Answer α) := do
      HookedList.clear
      return .done
    have complains : Complains kind Workbench.log Answer.error? later :=
      Workbench.answer_complains HookedList.clear_silent fun _ => rfl
    have start : Workbench.perform .empty ⟨list, s.session⟩ =
        later ⟨list, s.session.noted (.emptying list.chain.length)⟩ := rfl
    simp only [step, work, announced, found, Option.map_some, Option.toList_some,
      ← counts name list found, start]
    exact ended_logs complains ⟨list, s.session.noted (.emptying list.chain.length)⟩

def Unhooked (s : Store α) (op : Op α) : Prop :=
  ∃ source name memory list, op = .duplicateWithHook source name memory ∧
    s.lists.find? source = some list ∧ list.hooks.dup = none

theorem step_logs (counts : s.Counts) {op : Op α} (hooked : ¬ s.Unhooked op) :
    (s.step op).1.Logs op.complaints (s.announced op) := by
  have short (shortage : Shortage) : LogEntry.OfShortage (.allocationFailed shortage) := trivial
  have shortCopy (shortage : Shortage) : LogEntry.OfCopying (.allocationFailed shortage) := trivial
  have refused (copied : Nat) : LogEntry.OfCopying (.dupFailed copied) := trivial
  cases op with
  | create name policies => exact replace_logs _ _
  | createWithRoom name memory count =>
    exact keep_logs (HookedList.withRoom_complains short memory count)
  | on name op =>
    cases op with
    | empty => exact empty_logs counts name
    | _ => exact work_logs (Workbench.perform_complains short _ (by simp))
  | shareHooks name source => exact shareHooks_logs name source
  | join name source memory => exact join_logs short memory name source
  | duplicate source name memory =>
    exact duplicate_logs fun list _ =>
      HookedList.duplicateBy_complains shortCopy refused memory list.hooks.dup list
  | duplicateWithHook source name memory =>
    refine duplicate_logs fun list found => ?_
    unfold HookedList.duplicateWithHook
    cases installed : list.hooks.dup with
    | none => exact (hooked ⟨source, name, memory, list, rfl, found, installed⟩).elim
    | some hook => exact HookedList.duplicateBy_complains shortCopy refused memory (some hook) list
  | walkTaking name steps =>
    exact retire_logs (Workbench.answer_complains (HookedList.walkTaking_silent steps) fun _ => rfl)
  | release name => exact release_logs counts name
  | drop name => exact retire_logs (Workbench.answer_complains HookedList.clear_silent fun _ => rfl)

theorem step_unhooked {op : Op α} (unhooked : s.Unhooked op) :
    (s.step op).1 = ⟨.returned (.failed .duplicateFailed), [], [.noDupHook]⟩ := by
  obtain ⟨source, name, memory, list, rfl, found, bare⟩ := unhooked
  show (s.duplicate source name _).1 = _
  simp only [duplicate, found, HookedList.duplicateWithHook, bare]
  rfl

end Store

namespace Report

theorem logged_append {report : Report α} {first later : List LogEntry}
    (log : report.log = first ++ later) {level other : String} (apart : other ≠ level)
    (alike : ∀ entry ∈ first, entry.level = level)
    (alike' : ∀ entry ∈ later, entry.level = other) :
    report.logged level = first ∧ report.logged other = later := by
  have all (entries : List LogEntry) {own : String} (same : ∀ entry ∈ entries, entry.level = own) :
      entries.filter (fun entry => entry.level = own) = entries := by
    simpa [List.filter_eq_self] using same
  have none (entries : List LogEntry) {own another : String} (ne : own ≠ another)
      (same : ∀ entry ∈ entries, entry.level = own) :
      entries.filter (fun entry => entry.level = another) = [] := by
    simp only [List.filter_eq_nil_iff, decide_eq_true_eq]
    intro entry member same'
    exact ne ((same entry member).symm.trans same')
  unfold logged
  rw [log, List.filter_append, List.filter_append, all first alike, all later alike',
    none first (Ne.symm apart) alike, none later apart alike', List.append_nil, List.nil_append]
  exact ⟨rfl, rfl⟩

theorem Logs.levels {announced : List LogEntry} {report : Report α} (logs : report.Logs kind announced)
    (traces : ∀ entry ∈ announced, entry.level = "TRACE") :
    report.logged "TRACE" = announced ∧ report.log = announced ++ report.logged "DEBUG" ∧
      match report.outcome with
      | .returned answer => Tells kind answer.error? (report.logged "DEBUG")
      | _ => ∃ told, Tells kind told (report.logged "DEBUG") := by
  obtain ⟨entries, log, told⟩ := logs
  have some : ∃ told, Tells kind told entries := by
    cases outcome : report.outcome with
    | returned answer =>
      rw [outcome] at told
      exact ⟨_, told⟩
    | panicked panic =>
      rw [outcome] at told
      exact told
    | noList =>
      rw [outcome] at told
      exact told
  obtain ⟨_, tells⟩ := some
  have apart : "DEBUG" ≠ "TRACE" := by decide
  obtain ⟨trace, debug⟩ := logged_append log apart traces tells.debug
  rw [debug]
  exact ⟨trace, log, told⟩

end Report

section Copies

variable {hook : DupHook α} {e : ListError}

/-- The hook that refuses a value is told of, with the number of copies that are there. -/
theorem PlainBench.appendCopies_refuses {values : List α} {b c : PlainBench α}
    (run : appendCopies (some hook) values b = .ok (.error e) c) :
    ∃ asked, Copied hook asked b c ∧
      c.session.log = b.session.log ++ [.dupFailed c.list.roster.entries.length] := by
  induction values generalizing b with
  | nil => cases run
  | cons value rest ih =>
    obtain ⟨list, s⟩ := b
    rw [appendCopies_cons] at run
    rcases reply : hook.reply (s.ledger.dups.earlier hook.id) value with text | _ | copied
    · rw [reply] at run
      cases run
    · rw [reply] at run
      cases run
      exact ⟨[value], .refused reply _, rfl⟩
    · rw [reply] at run
      obtain ⟨asked, copies, logged⟩ := ih run
      exact ⟨value :: asked, copies.cons reply, logged⟩

/-- How many copies have been made does not change as they are given up. -/
theorem PlainList.duplicateBy_refuses [Stored α] {memory : Memory} {list : PlainList α}
    {s t : Session α} (run : list.duplicateBy memory (some hook) s = .ok (.error e) t) {copied : Nat}
    (logged : t.log = s.log ++ [.dupFailed copied]) :
    ∃ asked, copied = (hook.copies (s.ledger.dups.earlier hook.id) asked).length ∧
      t.calls = s.calls ++ asked.map (Call.dup hook.id hook.label) ++
        freeCalls list.hooks.free (hook.copies (s.ledger.dups.earlier hook.id) asked) := by
  unfold duplicateBy at run
  cases room : (Roster.empty : Roster α).reserve memory list.roster.entries.length with
  | error shortage =>
    rw [room] at run
    cases run
    cases List.append_cancel_left logged
  | ok grown =>
    rw [room] at run
    dsimp only at run
    rcases filled : PlainBench.appendCopies (some hook) list.roster.values ⟨⟨grown, list.hooks⟩, s⟩ with
      ⟨e' | done, b⟩ | ⟨panic, b⟩
    · obtain ⟨asked, copies, told⟩ := PlainBench.appendCopies_refuses filled
      have values : b.list.roster.values = hook.copies (s.ledger.dups.earlier hook.id) asked := by
        rw [copies.values, Roster.values_of_reserve room]
        rfl
      have hooks : b.list.hooks = list.hooks := copies.hooks
      rw [filled] at run
      simp only [bind_apply, drop, values, hooks] at run
      rcases Session.freeAll_cases list.hooks.free (hook.copies (s.ledger.dups.earlier hook.id) asked)
        b.session with ⟨u, freeing, freed⟩ | ⟨text, u, _, _, _, freeing, -⟩
      · rw [freeing] at run
        cases run
        rw [freed.log, told] at logged
        cases List.append_cancel_left logged
        refine ⟨asked, ?_, ?_⟩
        · rw [← values]
          exact (List.length_map _).symm
        · rw [freed.calls, copies.calls]
      · rw [freeing] at run
        cases run
    · rw [filled] at run
      cases run
    · rw [filled] at run
      simp only [bind_apply] at run
      cases dropped : b.list.dropUnwinding b.session <;> rw [dropped] at run <;> cases run

end Copies

namespace PlainStore

variable {p : PlainStore α} {source name : String} {list : PlainList α} {answer : Answer α}

theorem keep_failed {made : EStateM.Result Panic (Session α) (Except ListError (PlainList α))}
    (returned : (p.keep name made).1.outcome = .returned answer) (failed : answer ≠ .done) :
    ∃ e t, made = .ok (.error e) t ∧ (p.keep name made).1 = ⟨.returned answer, t.calls, t.log⟩ := by
  rcases made with ⟨error | copy, t⟩ | ⟨panic, t⟩
  · cases returned
    exact ⟨error, t, rfl, rfl⟩
  · have kept : p.keep name (.ok (.ok copy) t) = p.replace name copy t := rfl
    rw [kept] at returned
    unfold replace at returned
    cases found : p.lists.find? name with
    | none =>
      rw [found] at returned
      cases returned
      exact (failed rfl).elim
    | some old =>
      rw [found] at returned
      simp only [bind_apply] at returned
      cases dropped : old.drop t with
      | ok done u =>
        rw [dropped] at returned
        cases returned
        exact (failed rfl).elim
      | error panic u =>
        rw [dropped] at returned
        cases returned
  · cases returned

variable [BEq α] [Outlined α] [Stored α] {op : Op α} {memory : Memory} {copied : Nat}

theorem hookCopy_counted {hook : DupHook α} (copies : op.Copies source name)
    (found : p.lists.find? source = some list) (installed : list.hooks.dup = some hook)
    (step : p.step op = p.keep name (list.duplicateBy memory (some hook) p.session))
    (returned : (p.step op).1.outcome = .returned answer) (failed : answer ≠ .done)
    (logged : (p.step op).1.log = [.dupFailed copied]) :
    copied = (⟨p.view, op, (p.step op).1⟩ : Moment α).copied.length := by
  rw [step] at returned logged ⊢
  obtain ⟨e, t, made, report⟩ := keep_failed returned failed
  rw [report] at logged
  obtain ⟨asked, rfl, calls⟩ := PlainList.duplicateBy_refuses made logged
  rw [(Moment.copies_of copies).2.1, report]
  exact congrArg List.length (copies_asked found installed calls).symm

theorem copies_counted (copies : op.Copies source name)
    (returned : (p.step op).1.outcome = .returned answer) (failed : answer ≠ .done)
    (logged : (p.step op).1.log = [.dupFailed copied]) :
    copied = (⟨p.view, op, (p.step op).1⟩ : Moment α).copied.length := by
  obtain ⟨memory, same⟩ := copies
  cases found : p.lists.find? source with
  | none =>
    have refused : p.step op = p.refuse := by
      rcases same with rfl | rfl <;> simp only [step, duplicate, found]
    rw [refused] at returned
    cases returned
  | some list =>
    cases installed : list.hooks.dup with
    | some hook =>
      have step : p.step op = p.keep name (list.duplicateBy memory (some hook) p.session) := by
        rcases same with rfl | rfl
        · rw [duplicate_ends found, installed]
        · exact duplicateWithHook_ends found installed memory
      exact hookCopy_counted ⟨memory, same⟩ found installed step returned failed logged
    | none =>
      rcases same with rfl | rfl
      · rw [duplicate_ends found, installed] at returned logged
        obtain ⟨e, t, made, report⟩ := keep_failed returned failed
        rw [report] at logged
        rw [PlainList.duplicateBy_none] at made
        cases room : (Roster.empty : Roster α).reserve memory list.roster.entries.length with
        | error shortage =>
          rw [room] at made
          cases made
          cases logged
        | ok grown =>
          rw [room] at made
          cases made
      · rw [duplicateWithHook_unhooked found installed] at logged
        cases logged

end PlainStore

namespace Store

variable {s : Store α} {p : PlainStore α}

theorem Mirrors.counts (mirrors : s.Mirrors p) : s.Counts := by
  intro name list found
  obtain ⟨plain, -, same⟩ := mirrors.found found
  unfold HookedList.shown Shown.values
  rw [same.represents.entries, same.represents.length]
  exact (List.length_map _).symm

theorem complaints_hooked (op : Op α) : ¬ op.complaints .noDupHook := by
  cases op <;> exact id

theorem complaints_copies {op : Op α} {copied : Nat} (complains : op.complaints (.dupFailed copied)) :
    ∃ source name, op.Copies source name ∧ s.announced op = [] := by
  cases op with
  | duplicate source name memory => exact ⟨source, name, ⟨memory, .inl rfl⟩, rfl⟩
  | duplicateWithHook source name memory => exact ⟨source, name, ⟨memory, .inr rfl⟩, rfl⟩
  | _ => exact complains.elim

variable [BEq α] [Outlined α] [Stored α]

/-- An operation that fails logs one line of the level DEBUG, and no other operation that returns
    does. Emptying and releasing a list log one line of the level TRACE, also where a hook panics, and
    nothing else does. -/
structure LogsOnce (s : Store α) (op : Op α) : Prop where
  announces : (s.step op).1.logged "TRACE" = s.announced op
  memory : ∀ answer, (s.step op).1.outcome = .returned answer →
    (answer.error? = some .outOfMemory ↔
      ∃ shortage, (s.step op).1.logged "DEBUG" = [.allocationFailed shortage])
  duplication : ∀ answer, (s.step op).1.outcome = .returned answer →
    (answer.error? = some .duplicateFailed ↔ (s.step op).1.logged "DEBUG" = [.noDupHook] ∨
      ∃ copied, (s.step op).1.logged "DEBUG" = [.dupFailed copied])
  unhooked : (s.step op).1.logged "DEBUG" = [.noDupHook] ↔ s.Unhooked op
  counted : ∀ answer copied, (s.step op).1.outcome = .returned answer →
    (s.step op).1.logged "DEBUG" = [.dupFailed copied] →
    copied = (⟨s.view, op, (s.step op).1⟩ : Moment α).copied.length
  silent : ∀ answer, (s.step op).1.outcome = .returned answer → answer.error? = none →
    (s.step op).1.logged "DEBUG" = []

theorem Unhooked.logs_once {op : Op α} (unhooked : s.Unhooked op) : s.LogsOnce op := by
  have step := step_unhooked unhooked
  have trace : (s.step op).1.logged "TRACE" = [] := by
    rw [step]
    rfl
  have debug : (s.step op).1.logged "DEBUG" = [.noDupHook] := by
    rw [step]
    rfl
  have answers {answer : Answer α} (returned : (s.step op).1.outcome = .returned answer) :
      answer.error? = some .duplicateFailed := by
    rw [step] at returned
    cases returned
    rfl
  constructor
  · obtain ⟨source, name, memory, list, rfl, -⟩ := unhooked
    exact trace
  · intro answer returned
    rw [debug, answers returned]
    simp
  · intro answer returned
    exact ⟨fun _ => .inl debug, fun _ => answers returned⟩
  · exact ⟨fun _ => unhooked, fun _ => debug⟩
  · intro answer copied returned other
    cases debug.symm.trans other
  · intro answer returned fine
    cases fine.symm.trans (answers returned)

theorem Mirrors.logs_once (mirrors : s.Mirrors p) (op : Op α) : s.LogsOnce op := by
  by_cases unhooked : s.Unhooked op
  · exact unhooked.logs_once
  obtain ⟨trace, log, tells⟩ := (step_logs mirrors.counts unhooked).levels (announced_traces s op)
  have told {answer : Answer α} (returned : (s.step op).1.outcome = .returned answer) :
      Tells op.complaints answer.error? ((s.step op).1.logged "DEBUG") := by
    rw [returned] at tells
    exact tells
  have kinds : ∀ entry ∈ (s.step op).1.logged "DEBUG", op.complaints entry := by
    cases outcome : (s.step op).1.outcome with
    | returned answer => exact (told outcome).kinds
    | panicked panic =>
      rw [outcome] at tells
      exact tells.choose_spec.kinds
    | noList =>
      rw [outcome] at tells
      exact tells.choose_spec.kinds
  constructor
  · exact trace
  · intro answer returned
    have tells := told returned
    constructor
    · intro failed
      rw [failed] at tells
      obtain ⟨entry, debug, error⟩ := tells.once
      cases entry <;> cases error
      exact ⟨_, debug⟩
    · rintro ⟨shortage, debug⟩
      rw [debug] at tells
      exact tells.error
  · intro answer returned
    have tells := told returned
    constructor
    · intro failed
      rw [failed] at tells
      obtain ⟨entry, debug, error⟩ := tells.once
      cases entry with
      | noDupHook => exact .inl debug
      | dupFailed copied => exact .inr ⟨copied, debug⟩
      | _ => cases error
    · rintro (debug | ⟨copied, debug⟩) <;> rw [debug] at tells <;> exact tells.error
  · constructor
    · intro debug
      have bare := kinds .noDupHook (debug ▸ List.mem_cons_self)
      exact (complaints_hooked op bare).elim
    · exact fun bare => (unhooked bare).elim
  · intro answer copied returned debug
    have refused := kinds (.dupFailed copied) (debug ▸ List.mem_cons_self)
    obtain ⟨source, name, copies, unannounced⟩ := complaints_copies (s := s) refused
    have error : answer.error? = some .duplicateFailed := by
      have tells := told returned
      rw [debug] at tells
      exact tells.error
    have failed : answer ≠ .done := by
      rintro rfl
      cases error
    rw [unannounced, debug, List.nil_append] at log
    have same := (step_agrees mirrors op).report
    rw [mirrors.view_eq]
    rw [same] at returned log ⊢
    exact PlainStore.copies_counted copies returned failed log
  · intro answer returned fine
    have tells := told returned
    rw [fine] at tells
    exact tells.silent

/-- An error is told where it comes up, and by nothing that hands it on: the insertions of a copy, the
    whole copy with the end of what stays unfinished, and a join. -/
structure PassesUp (α : Type) [Stored α] : Prop where
  converted : ∀ e : InsertError α, e.toListError = e.error
  reserve : ∀ memory count,
    Complains LogEntry.OfShortage Workbench.log errorOf (HookedList.reserve (α := α) memory count)
  insert : ∀ memory place (value : α),
    Complains LogEntry.OfShortage Workbench.log insertErrorOf (HookedList.insert memory place value)
  fillCopy : ∀ memory hook? (values : List α),
    Complains LogEntry.OfCopying Workbench.log errorOf (HookedList.fillCopy memory hook? values)
  duplicateBy : ∀ memory hook? (list : HookedList α),
    Complains LogEntry.OfCopying Session.log errorOf (HookedList.duplicateBy memory hook? list)
  join : ∀ memory, Complains LogEntry.OfShortage
    (fun both : Workbench α × HookedList α => both.1.log) errorOf (HookedList.join memory)

theorem passes_up (α : Type) [Stored α] : PassesUp α where
  converted _ := rfl
  reserve memory count := HookedList.reserve_complains (fun _ => trivial) memory count
  insert memory place value := HookedList.insert_complains (fun _ => trivial) memory place value
  fillCopy memory hook? values :=
    HookedList.fillCopy_complains (fun _ => trivial) (fun _ => trivial) memory hook? values
  duplicateBy memory hook? list :=
    HookedList.duplicateBy_complains (fun _ => trivial) (fun _ => trivial) memory hook? list
  join memory := HookedList.join_complains (fun _ => trivial) memory

/-- Every failure is logged once, whatever a run has done before. -/
theorem run_logs (ops : List (Op α)) :
    (∀ op, (Store.empty.run ops).2.LogsOnce op) ∧ PassesUp α := by
  have mirrors := (run_agrees (empty_mirrors (α := α)) ops).2
  exact ⟨mirrors.logs_once, passes_up α⟩

/-- One copy has been made when the hook refuses the second value. Both lists' values are then given
    up: that of the copy in silence, and those of the original after its length. -/
theorem run_logs_a_refusal :
    let ops : List (Op Value) := [
      .create "a" {
        dup := some (Value.Copying.policy "dup" (.limit 1))
        free := some (Value.Freeing.policy "free" (.panicIf (.int 2))) },
      .on "a" (.insert .available .tail (.int 1)),
      .on "a" (.insert .available .tail (.int 2)),
      .on "a" (.insert .available .tail (.int 3))]
    ((Store.empty.run ops).2.step (.duplicate "a" "b" .available)).1.outcome =
        .returned (.failed .duplicateFailed) ∧
      ((Store.empty.run ops).2.step (.duplicate "a" "b" .available)).1.logged "DEBUG" = [.dupFailed 1] ∧
      (⟨(Store.empty.run ops).2.view, .duplicate "a" "b" .available,
        ((Store.empty.run ops).2.step (.duplicate "a" "b" .available)).1⟩ : Moment Value).copied.length = 1 ∧
      ((Store.empty.run ops).2.step (.release "a")).1.outcome = .panicked (.hook "free hook panicked") ∧
      ((Store.empty.run ops).2.step (.release "a")).1.logged "TRACE" = [.releasing 3] := by
  intro ops
  have logs := (run_logs ops).1
  have outcome : ((Store.empty.run ops).2.step (.duplicate "a" "b" .available)).1.outcome =
      .returned (.failed .duplicateFailed) := by
    cbv
  have debug : ((Store.empty.run ops).2.step (.duplicate "a" "b" .available)).1.logged "DEBUG" =
      [.dupFailed 1] := by
    cbv
  have cut : ((Store.empty.run ops).2.step (.release "a")).1.outcome =
      .panicked (.hook "free hook panicked") := by
    cbv
  have announced : (Store.empty.run ops).2.announced (.release "a") = [.releasing 3] := by
    cbv
  have counted := (logs (.duplicate "a" "b" .available)).counted _ 1 outcome debug
  have traced := (logs (.release "a")).announces.trans announced
  exact ⟨outcome, debug, counted.symm, cut, traced⟩

end Store

end LinkedSlots
