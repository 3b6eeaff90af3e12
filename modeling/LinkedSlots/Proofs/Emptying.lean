import LinkedSlots.Proofs.Account
import LinkedSlots.Proofs.Links
import LinkedSlots.Proofs.Reservation

namespace LinkedSlots

variable {α : Type}

def Hook.Accepts (hook : FreeHook α) (earlier : List α) : List α → Prop
  | [] => True
  | value :: rest => hook.reply earlier value = .ok () ∧ hook.Accepts (earlier ++ [value]) rest

theorem Hook.accepts_or (hook : FreeHook α) (earlier values : List α) :
    hook.Accepts earlier values ∨ ∃ done value rest text, values = done ++ value :: rest ∧
      hook.Accepts earlier done ∧ hook.reply (earlier ++ done) value = .error text := by
  induction values generalizing earlier with
  | nil => exact .inl trivial
  | cons value rest ih =>
    cases reply : hook.reply earlier value with
    | error text =>
      rw [← earlier.append_nil] at reply
      exact .inr ⟨[], value, rest, text, rfl, trivial, reply⟩
    | ok done =>
      rcases ih (earlier ++ [value]) with all | ⟨done, other, behind, text, rfl, accepts, refuses⟩
      · exact .inl ⟨reply, all⟩
      · rw [← List.append_cons] at refuses
        exact .inr ⟨value :: done, other, behind, text, rfl, ⟨reply, accepts⟩, refuses⟩

namespace Session

def called (hook : FreeHook α) (s : Session α) (value : α) : Session α :=
  { s with
    ledger.frees := s.ledger.frees.record hook.id value
    calls := s.calls ++ [Call.free hook.id hook.label value] }

def calledAll (hook : FreeHook α) (s : Session α) (values : List α) : Session α :=
  values.foldl (called hook) s

variable {hook : FreeHook α} {s : Session α} {value : α}

theorem callFree_apply (hook : FreeHook α) (value : α) (s : Session α) :
    callFree hook value s = match hook.reply (s.ledger.frees.earlier hook.id) value with
      | .ok () => .ok () (s.called hook value)
      | .error text => .error (.hook text) (s.called hook value) := by
  simp only [callFree, bind_apply, get_apply, set_apply]
  cases hook.reply (s.ledger.frees.earlier hook.id) value <;> rfl

theorem called_earlier (hook : FreeHook α) (s : Session α) (value : α) :
    (s.called hook value).ledger.frees.earlier hook.id =
      s.ledger.frees.earlier hook.id ++ [value] :=
  CallBook.earlier_record _ _ _

theorem calledAll_calls (hook : FreeHook α) (s : Session α) (values : List α) :
    (s.calledAll hook values).calls = s.calls ++ values.map (Call.free hook.id hook.label) := by
  induction values generalizing s with
  | nil => exact (List.append_nil _).symm
  | cons value rest ih =>
    have later : (s.calledAll hook (value :: rest)).calls = _ := ih (s.called hook value)
    rw [later, called, List.append_assoc]
    rfl

theorem calledAll_log (hook : FreeHook α) (s : Session α) (values : List α) :
    (s.calledAll hook values).log = s.log := by
  induction values generalizing s with
  | nil => rfl
  | cons value rest ih => exact ih (s.called hook value)

/-- An operation that only notes its start and calls the hook reports just that. -/
theorem calledAll_report (p : PlainStore α) (outcome : Outcome α) (entry : LogEntry)
    (hook : FreeHook α) (values : List α) :
    let ended := (p.session.noted entry).calledAll hook values
    (⟨outcome, ended.calls, ended.log⟩ : Report α) =
      ⟨outcome, values.map (Call.free hook.id hook.label), [entry]⟩ := by
  intro ended
  have calls : ended.calls = [] ++ values.map (Call.free hook.id hook.label) := calledAll_calls ..
  have log : ended.log = [entry] := calledAll_log ..
  rw [calls, log, List.nil_append]

theorem calledAll_earlier (hook : FreeHook α) (s : Session α) (values : List α) :
    (s.calledAll hook values).ledger.frees.earlier hook.id =
      s.ledger.frees.earlier hook.id ++ values := by
  have book : s.ledger.frees.recordAll hook.id values = (s.calledAll hook values).ledger.frees :=
    List.foldl_hom (fun s : Session α => s.ledger.frees) fun _ _ => rfl
  rw [← book, CallBook.earlier_recordAll]

theorem freeAll_accepted {values : List α}
    (accepts : hook.Accepts (s.ledger.frees.earlier hook.id) values) :
    freeAll (some hook) values s = .ok () (s.calledAll hook values) := by
  induction values generalizing s with
  | nil => rfl
  | cons value rest ih =>
    rcases accepts with ⟨reply, later⟩
    rw [← called_earlier] at later
    rw [freeAll, bind_apply, free, callFree_apply, reply]
    exact ih later

theorem freeAll_refused {done rest : List α} {text : String}
    (accepts : hook.Accepts (s.ledger.frees.earlier hook.id) done)
    (refuses : hook.reply (s.ledger.frees.earlier hook.id ++ done) value = .error text) :
    freeAll (some hook) (done ++ value :: rest) s =
      .error (.hook text) (s.calledAll hook (done ++ [value])) := by
  induction done generalizing s with
  | nil =>
    rw [List.append_nil] at refuses
    rw [List.nil_append, freeAll, bind_apply, free, callFree_apply, refuses]
    rfl
  | cons first done ih =>
    rcases accepts with ⟨reply, later⟩
    rw [← called_earlier] at later
    rw [List.append_cons, ← called_earlier] at refuses
    rw [List.cons_append, freeAll, bind_apply, free, callFree_apply, reply]
    exact ih later refuses

end Session

namespace Chain

structure Shortened (c : Chain α) (vacant : List Handle) (gone rest : List (Handle × α))
    (after : Chain α) : Prop where
  entries : after.entries = .ok rest
  linked : after.Linked (rest.map Prod.fst) ((gone.map Prod.fst).reverse ++ vacant)
  slots : after.slots.size = c.slots.size
  capacity : after.capacity = c.capacity

theorem Represents.shortened {c after : Chain α} {q : Roster α} {gone rest : List (Handle × α)}
    (rep : c.Represents q) (rep' : after.Represents (q.dropFront gone.length))
    (entries : q.entries = gone ++ rest) : c.Shortened q.vacant gone rest after := by
  have left : (q.dropFront gone.length).entries = rest := by
    rw [Roster.dropFront, entries, List.drop_left]
  have stack : (q.dropFront gone.length).vacant = (gone.map Prod.fst).reverse ++ q.vacant := by
    rw [Roster.dropFront, entries, List.take_left]
  have shown := rep'.entries
  have linked := rep'.linked
  rw [Roster.handles] at linked
  rw [left] at shown linked
  rw [stack] at linked
  exact ⟨shown, linked, rep'.size.trans rep.size.symm, rep'.capacity.trans rep.capacity.symm⟩

end Chain

namespace HookedList

open Workbench

variable {c : Chain α} {q : Roster α} {hooks : HookSet α} {hook : FreeHook α}

/-- When the hook is called with a value, its node has left the chain already. -/
theorem freeFront_calls (rep : c.Represents q) (installed : hooks.free = some hook) {s : Session α}
    {done rest : List (Handle × α)} {handle : Handle} {value : α}
    (entries : q.entries = done ++ (handle, value) :: rest)
    (accepts : hook.Accepts (s.ledger.frees.earlier hook.id) (done.map Prod.snd)) :
    ∃ c', c'.Represents (q.dropFront (done.length + 1)) ∧
      freeFront (done.length + 1) ⟨⟨c, hooks⟩, s⟩ =
        share (Session.callFree hook value)
          ⟨⟨c', hooks⟩, s.calledAll hook (done.map Prod.snd)⟩ := by
  induction done generalizing c q s with
  | nil =>
    rcases rep.popFront_cons entries with ⟨c', popped, rep'⟩
    have pop : edit Chain.popFront ⟨⟨c, hooks⟩, s⟩ = .ok (some value) ⟨⟨c', hooks⟩, s⟩ := by
      simp [edit, popped]
    have same : (q.takeOut [] handle rest).dropFront 0 = q.takeOut [] handle rest := by
      simp [Roster.dropFront]
    refine ⟨c', ?_, ?_⟩
    · rw [List.length_nil, ← dropFront_cons entries, same]
      exact rep'
    · have start : s.calledAll hook [] = s := rfl
      simp only [List.length_nil, List.map_nil, start, freeFront, bind_apply, pop, dispose_apply,
        installed, Session.free, share_apply]
      cases Session.callFree hook value s <;> rfl
  | cons first done ih =>
    rcases first with ⟨other, gone⟩
    rcases rep.popFront_cons entries with ⟨c₁, popped, rep₁⟩
    have pop : edit Chain.popFront ⟨⟨c, hooks⟩, s⟩ = .ok (some gone) ⟨⟨c₁, hooks⟩, s⟩ := by
      simp [edit, popped]
    rcases accepts with ⟨reply, later⟩
    rw [← Session.called_earlier] at later
    rcases ih rep₁ rfl later with ⟨c', rep', run⟩
    rw [dropFront_cons entries] at rep'
    refine ⟨c', rep', ?_⟩
    have accepted : dispose gone ⟨⟨c₁, hooks⟩, s⟩ = .ok () ⟨⟨c₁, hooks⟩, s.called hook gone⟩ := by
      rw [dispose_apply, installed, share_apply, Session.free, Session.callFree_apply, reply]
    rw [List.length_cons, freeFront, bind_apply, pop]
    dsimp only
    rw [bind_apply, accepted]
    exact run

end HookedList

namespace PlainStore

variable {p : PlainStore α} {name : String} {list : PlainList α} {hook : FreeHook α}
  [BEq α] [Outlined α] [Stored α]

/-- The node goes before the hook is asked, so the reply only makes a difference to the outcome. -/
theorem delete_ends (found : p.lists.find? name = some list) (proper : list.roster.Proper)
    (installed : list.hooks.free = some hook) {front back : List (Handle × α)} {handle : Handle}
    {value : α} (entries : list.roster.entries = front ++ (handle, value) :: back) :
    p.step (.on name (.delete handle)) =
      conclude (p.lists.put name ⟨list.roster.takeOut front handle back, list.hooks⟩)
        (match hook.reply (p.ledger.frees.earlier hook.id) value with
          | .ok () => .ok (.value none) (p.session.called hook value)
          | .error text => .error (.hook text) (p.session.called hook value)) := by
  rw [delete_hands_out found proper entries, HookSet.handOut, installed]
  simp only [bind_apply, Session.callFree_apply]
  have same : p.session.ledger = p.ledger := rfl
  rw [same]
  cases hook.reply (p.ledger.frees.earlier hook.id) value <;> rfl

theorem empty_accepted (found : p.lists.find? name = some list)
    (installed : list.hooks.free = some hook)
    (accepts : hook.Accepts (p.ledger.frees.earlier hook.id) list.roster.values) :
    p.step (.on name .empty) = conclude (p.lists.put name ⟨list.roster.reset, list.hooks⟩)
      (.ok .done ((p.session.noted (.emptying list.roster.entries.length)).calledAll hook
        list.roster.values)) := by
  have freeing : Session.freeAll (some hook) list.roster.values
      (p.session.noted (.emptying list.roster.entries.length)) = _ := Session.freeAll_accepted accepts
  rw [empty_ends found, installed, freeing]

/-- The values behind the first one at which the hook panics stay. -/
theorem empty_refused (found : p.lists.find? name = some list)
    (installed : list.hooks.free = some hook) {done rest : List (Handle × α)} {handle : Handle}
    {value : α} {text : String} (entries : list.roster.entries = done ++ (handle, value) :: rest)
    (accepts : hook.Accepts (p.ledger.frees.earlier hook.id) (done.map Prod.snd))
    (refuses : hook.reply (p.ledger.frees.earlier hook.id ++ done.map Prod.snd) value =
      .error text) :
    p.step (.on name .empty) =
      conclude (p.lists.put name ⟨list.roster.dropFront (done.length + 1), list.hooks⟩)
        (.error (.hook text) ((p.session.noted (.emptying list.roster.entries.length)).calledAll hook
          (done.map Prod.snd ++ [value]))) := by
  have values : list.roster.values = done.map Prod.snd ++ value :: rest.map Prod.snd := by
    rw [Roster.values, entries, List.map_append, List.map_cons]
  have freeing : Session.freeAll (some hook) (done.map Prod.snd ++ value :: rest.map Prod.snd)
      (p.session.noted (.emptying list.roster.entries.length)) = _ :=
    Session.freeAll_refused accepts refuses
  have counted : ((p.session.noted (.emptying list.roster.entries.length)).calledAll hook
      (done.map Prod.snd ++ [value])).calls.length = done.length + 1 := by
    rw [Session.calledAll_calls]
    simp [Session.noted, session]
  rw [empty_ends found, installed, values, freeing]
  dsimp only
  rw [counted]

/-- Emptying gives the first values to the hook and keeps the others. -/
theorem empty_passes (found : p.lists.find? name = some list)
    (installed : list.hooks.free = some hook) :
    ∃ passed rest after, list.roster.values = passed ++ rest ∧
      (p.step (.on name .empty)).1.calls = passed.map (Call.free hook.id hook.label) ∧
      ((p.step (.on name .empty)).1.outcome = .returned .done → rest = []) ∧
      (p.step (.on name .empty)).2.lists.find? name = some after ∧
      after.hooks = list.hooks ∧ after.roster.values = rest := by
  have step := empty_ends found
  rw [installed] at step
  rcases Session.freeAll_cases (some hook) list.roster.values
      (p.session.noted (.emptying list.roster.entries.length)) with
    ⟨t, freeing, freed⟩ | ⟨text, t, done, value, rest, freeing, split, -, freed⟩
  · rw [freeing] at step
    rw [step]
    refine ⟨list.roster.values, [], _, (List.append_nil _).symm, freed.calls, fun _ => rfl,
      p.lists.find?_put_self name _, rfl, rfl⟩
  · rw [freeing] at step
    rw [step]
    have calls : t.calls = (done ++ [value]).map (Call.free hook.id hook.label) := freed.calls
    have left : (list.roster.dropFront t.calls.length).values = rest := by
      rw [Roster.values, Roster.dropFront, List.map_drop, ← Roster.values, split, List.append_cons,
        calls, List.length_map, List.drop_left]
    refine ⟨done ++ [value], rest, _, split.trans (List.append_cons ..), calls, ?_,
      p.lists.find?_put_self name _, rfl, left⟩
    intro finished
    cases finished

/-- Emptied again and again, a list gives the hook its values in order, and all of them once a call
    comes to its end. -/
theorem empties_pass (found : p.lists.find? name = some list)
    (installed : list.hooks.free = some hook) (count : Nat) :
    ∃ passed, passed <+: list.roster.values ∧
      (p.run (List.replicate count (.on name .empty))).1.flatMap Report.calls =
        passed.map (Call.free hook.id hook.label) ∧
      ((∃ report ∈ (p.run (List.replicate count (.on name .empty))).1,
        report.outcome = .returned .done) → passed = list.roster.values) := by
  induction count generalizing p list with
  | zero => exact ⟨[], List.nil_prefix, rfl, nofun⟩
  | succ count ih =>
    rcases empty_passes found installed with
      ⟨passed, rest, after, split, calls, whole, stored, hooks, left⟩
    rcases ih stored ((congrArg HookSet.free hooks).trans installed) with ⟨more, front, calls', whole'⟩
    rw [left] at front whole'
    have reports : (p.run (List.replicate (count + 1) (.on name .empty))).1 =
        (p.step (.on name .empty)).1 ::
          ((p.step (.on name .empty)).2.run (List.replicate count (.on name .empty))).1 := rfl
    rw [reports, split]
    refine ⟨passed ++ more, (List.prefix_append_right_inj passed).mpr front, ?_, ?_⟩
    · rw [List.flatMap_cons, calls, calls', List.map_append]
    · rintro ⟨report, member, ended⟩
      congr 1
      rcases List.mem_cons.mp member with rfl | later
      · have none := whole ended
        rw [none] at front ⊢
        exact List.prefix_nil.mp front
      · exact whole' ⟨report, later, ended⟩

end PlainStore

def Outcome.ofReply : Except String Unit → Outcome α
  | .ok () => .returned (.value none)
  | .error text => .panicked (.hook text)

namespace Store

variable {s : Store α} {p : PlainStore α} {name : String} {list : HookedList α} {hook : FreeHook α}
  {entries : List (Handle × α)} {vacant : List Handle} [BEq α] [Outlined α] [Stored α]

structure Deletes (s : Store α) (name : String) (list : HookedList α) (hook : FreeHook α)
    (handle : Handle) (value : α) (left : Chain α) : Prop where
  unlinked : Chain.unlink handle list.chain = .ok value left
  report : (s.step (.on name (.delete handle))).1 =
    ⟨.ofReply (hook.reply (s.ledger.frees.earlier hook.id) value),
      [.free hook.id hook.label value], []⟩
  stored : (s.step (.on name (.delete handle))).2.lists.find? name = some ⟨left, list.hooks⟩

/-- How emptying a list goes on, by the replies of the hook: up to any of its calls, to the end, to
    the first call that panics, and where it is begun again. -/
structure Empties (s : Store α) (name : String) (list : HookedList α) (hook : FreeHook α)
    (entries : List (Handle × α)) (vacant : List Handle) : Prop where
  reaches : ∀ done handle value rest, entries = done ++ (handle, value) :: rest →
    hook.Accepts (s.ledger.frees.earlier hook.id) (done.map Prod.snd) →
      ∃ c t, HookedList.freeFront (done.length + 1)
          ⟨list, s.session.noted (.emptying entries.length)⟩ =
            Workbench.share (Session.callFree hook value) ⟨⟨c, list.hooks⟩, t⟩ ∧
        list.chain.Shortened vacant (done ++ [(handle, value)]) rest c ∧
        t.ledger.frees.earlier hook.id =
          s.ledger.frees.earlier hook.id ++ done.map Prod.snd
  ends : hook.Accepts (s.ledger.frees.earlier hook.id) (entries.map Prod.snd) →
    (s.step (.on name .empty)).1 = ⟨.returned .done,
      (entries.map Prod.snd).map (Call.free hook.id hook.label), [.emptying entries.length]⟩ ∧
    ∃ after, (s.step (.on name .empty)).2.lists.find? name = some ⟨after, list.hooks⟩ ∧
      after.entries = .ok [] ∧ after.slots = #[] ∧ after.capacity = list.chain.capacity
  stops : ∀ done handle value rest text, entries = done ++ (handle, value) :: rest →
    hook.Accepts (s.ledger.frees.earlier hook.id) (done.map Prod.snd) →
    hook.reply (s.ledger.frees.earlier hook.id ++ done.map Prod.snd) value = .error text →
      (s.step (.on name .empty)).1 = ⟨.panicked (.hook text),
        (done.map Prod.snd ++ [value]).map (Call.free hook.id hook.label),
        [.emptying entries.length]⟩ ∧
      ∃ after, (s.step (.on name .empty)).2.lists.find? name = some ⟨after, list.hooks⟩ ∧
        list.chain.Shortened vacant (done ++ [(handle, value)]) rest after
  repeats : ∀ count, let reports := (s.run (List.replicate count (.on name .empty))).1
    ∃ passed, passed <+: entries.map Prod.snd ∧
      reports.flatMap Report.calls = passed.map (Call.free hook.id hook.label) ∧
      ((∃ report ∈ reports, report.outcome = .returned .done) → passed = entries.map Prod.snd)

theorem Mirrors.deletes (mirrors : s.Mirrors p) {plain : PlainList α}
    (there : p.lists.find? name = some plain) (same : list.Mirrors plain)
    (installed : list.hooks.free = some hook) {handle : Handle} {value : α}
    (member : (handle, value) ∈ plain.roster.entries) :
    ∃ left, s.Deletes name list hook handle value left := by
  rcases list with ⟨c, hooks⟩
  rcases same with ⟨rep, rfl⟩
  rcases List.append_of_mem member with ⟨front, back, split⟩
  rcases rep.unlink split with ⟨left, unlinked, rep'⟩
  have step := PlainStore.delete_ends there rep.proper installed split
  have agree := step_agrees mirrors (.on name (.delete handle))
  have stored : (p.step (.on name (.delete handle))).2.lists.find? name =
      some ⟨plain.roster.takeOut front handle back, plain.hooks⟩ := by
    rw [step, PlainStore.conclude_lists]
    exact p.lists.find?_put_self name _
  rcases agree.stores.mirrored stored with ⟨after, found, same'⟩
  have kept : after = ⟨left, plain.hooks⟩ := same'.determines ⟨rep', rfl⟩
  refine ⟨left, unlinked, ?_, ?_⟩
  · rw [agree.report, step, mirrors.ledger]
    cases hook.reply (p.ledger.frees.earlier hook.id) value <;> rfl
  · rw [found, kept]

theorem Mirrors.empties (mirrors : s.Mirrors p) {plain : PlainList α}
    (there : p.lists.find? name = some plain) (same : list.Mirrors plain)
    (installed : list.hooks.free = some hook) :
    s.Empties name list hook plain.roster.entries plain.roster.vacant := by
  rcases list with ⟨c, hooks⟩
  rcases same with ⟨rep, rfl⟩
  have agree := step_agrees mirrors (.on name .empty)
  constructor
  case reaches =>
    intro done handle value rest split accepts
    have earlier : s.ledger.frees.earlier hook.id =
        (p.session.noted (.emptying plain.roster.entries.length)).ledger.frees.earlier hook.id := by
      rw [mirrors.ledger]
      rfl
    rw [mirrors.session]
    rw [earlier] at accepts ⊢
    rcases HookedList.freeFront_calls rep installed split accepts with ⟨c', rep', run⟩
    have gone : (done ++ [(handle, value)]).length = done.length + 1 := List.length_append
    rw [← gone] at rep'
    refine ⟨c', _, run, rep.shortened rep' (split.trans (List.append_cons ..)), ?_⟩
    exact Session.calledAll_earlier ..
  case ends =>
    intro accepts
    rw [mirrors.ledger] at accepts
    have step := PlainStore.empty_accepted there installed accepts
    have stored : (p.step (.on name .empty)).2.lists.find? name =
        some ⟨plain.roster.reset, plain.hooks⟩ := by
      rw [step]
      exact p.lists.find?_put_self name _
    rcases agree.stores.mirrored stored with ⟨⟨after, _⟩, found, ⟨rep', rfl⟩⟩
    constructor
    · rw [agree.report, step]
      exact Session.calledAll_report ..
    · exact ⟨after, found, rep'.entries, Array.eq_empty_of_size_eq_zero rep'.size,
        rep'.capacity.trans rep.capacity.symm⟩
  case stops =>
    intro done handle value rest text split accepts refuses
    rw [mirrors.ledger] at accepts refuses
    have step := PlainStore.empty_refused there installed split accepts refuses
    have stored : (p.step (.on name .empty)).2.lists.find? name =
        some ⟨plain.roster.dropFront (done ++ [(handle, value)]).length, plain.hooks⟩ := by
      rw [step, List.length_append]
      exact p.lists.find?_put_self name _
    rcases agree.stores.mirrored stored with ⟨⟨after, _⟩, found, ⟨rep', rfl⟩⟩
    constructor
    · rw [agree.report, step]
      exact Session.calledAll_report ..
    · exact ⟨after, found, rep.shortened rep' (split.trans (List.append_cons ..))⟩
  case repeats =>
    intro count
    rw [(run_agrees mirrors _).1]
    exact PlainStore.empties_pass there installed count

/-- Whatever state its free hook is in, a list gives up its nodes one by one from the head, each of
    them before the hook has its value. A panic leaves the nodes behind it for the next time. -/
theorem run_empties (ops : List (Op α)) {name : String} {list : HookedList α} {hook : FreeHook α}
    (found : (Store.empty.run ops).2.lists.find? name = some list)
    (installed : list.hooks.free = some hook) :
    let reached := (Store.empty.run ops).2
    ∃ entries vacant, list.chain.entries = .ok entries ∧
      list.chain.Linked (entries.map Prod.fst) vacant ∧
      (∀ handle value, (handle, value) ∈ entries →
        ∃ left, reached.Deletes name list hook handle value left) ∧
      reached.Empties name list hook entries vacant := by
  intro reached
  have mirrors : reached.Mirrors _ := (run_agrees empty_mirrors ops).2
  rcases mirrors.found found with ⟨plain, there, same⟩
  have rep := same.represents
  refine ⟨plain.roster.entries, plain.roster.vacant, rep.entries, rep.linked, ?_, ?_⟩
  · intro handle value member
    exact mirrors.deletes there same installed member
  · exact mirrors.empties there same installed

/-- The hook panics at its third call, the second one of the first emptying. The other two values
    reach it when the list is emptied again. -/
theorem run_empties_begun_again :
    let ops : List (Op Value) := [
      .create "a" { free := some (Value.Freeing.policy "free" (.panicAt 2)) },
      .on "a" (.insert .available .tail (.int 1)),
      .on "a" (.insert .available .tail (.int 2)),
      .on "a" (.insert .available .tail (.int 3)),
      .on "a" (.insert .available .head (.int 4)),
      .on "a" (.insert .available .head (.int 5)),
      .on "a" (.delete 1)]
    ∃ list hook entries, (Store.empty.run ops).2.lists.find? "a" = some list ∧
      list.hooks.free = some hook ∧ list.chain.entries = .ok entries ∧ entries.length = 4 ∧
      ¬ ((Store.empty.run ops).2.step (.on "a" .empty)).1.outcome.Calm ∧
      ((Store.empty.run ops).2.run (List.replicate 2 (.on "a" .empty))).1.flatMap Report.calls =
        (entries.map Prod.snd).map (Call.free hook.id hook.label) := by
  intro ops
  have present : ((Store.empty.run ops).2.lists.find? "a").map
      (fun list => (list.hooks.free.isSome, list.chain.length)) = some (true, 4) := by
    decide +kernel
  rcases Option.map_eq_some_iff.mp present with ⟨list, found, facts⟩
  simp only [Prod.mk.injEq] at facts
  rcases Option.isSome_iff_exists.mp facts.1 with ⟨hook, installed⟩
  rcases run_empties ops found installed with ⟨entries, vacant, shown, linked, -, empties⟩
  have count : entries.length = 4 := by
    rw [← facts.2, linked.counted, List.length_map]
  have done : ∃ report ∈ ((Store.empty.run ops).2.run (List.replicate 2 (.on "a" .empty))).1,
      report.outcome = .returned .done := by
    decide +kernel
  rcases empties.repeats 2 with ⟨passed, -, calls, whole⟩
  rw [whole done] at calls
  exact ⟨list, hook, entries, found, installed, shown, count, by decide +kernel, calls⟩

end Store

end LinkedSlots
