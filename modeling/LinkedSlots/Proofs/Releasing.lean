import LinkedSlots.Proofs.Duplicating

namespace LinkedSlots

variable {α : Type}

theorem Session.calledAll_append (hook : FreeHook α) (s : Session α) (first later : List α) :
    s.calledAll hook (first ++ later) = (s.calledAll hook first).calledAll hook later :=
  List.foldl_append

theorem Session.calledAll_count (hook : FreeHook α) (s : Session α) (values : List α) :
    (s.calledAll hook values).calls.length - s.calls.length = values.length := by
  rw [calledAll_calls, List.length_append, List.length_map, Nat.add_sub_cancel_left]

namespace PlainList

variable {list : PlainList α} {hook : FreeHook α} {s : Session α}

theorem release_accepted (installed : list.hooks.free = some hook)
    (accepts : hook.Accepts (s.ledger.frees.earlier hook.id) list.roster.values) :
    list.release s = .ok () ((s.noted (.releasing list.roster.entries.length)).calledAll hook
      list.roster.values) := by
  have freeing : Session.freeAll (some hook) list.roster.values
    (s.noted (.releasing list.roster.entries.length)) = _ := Session.freeAll_accepted accepts
  rw [release_apply, installed, freeing]

/-- The values behind the one at which the hook panics reach it all the same. -/
theorem release_unwinds (installed : list.hooks.free = some hook) {done rest : List α} {value : α}
    {text : String} (values : list.roster.values = done ++ value :: rest)
    (accepts : hook.Accepts (s.ledger.frees.earlier hook.id) done)
    (refuses : hook.reply (s.ledger.frees.earlier hook.id ++ done) value = .error text)
    (goes : hook.Accepts (s.ledger.frees.earlier hook.id ++ done ++ [value]) rest) :
    list.release s = .error (.hook text)
      ((s.noted (.releasing list.roster.entries.length)).calledAll hook list.roster.values) := by
  have counted : ((s.noted (.releasing list.roster.entries.length)).calledAll hook
      (done ++ [value])).calls.length - s.calls.length = (done ++ [value]).length :=
    Session.calledAll_count ..
  have earlier : ((s.noted (.releasing list.roster.entries.length)).calledAll hook
      (done ++ [value])).ledger.frees.earlier hook.id =
        s.ledger.frees.earlier hook.id ++ (done ++ [value]) := Session.calledAll_earlier ..
  have freeing : Session.freeAll (some hook) (done ++ value :: rest)
      (s.noted (.releasing list.roster.entries.length)) = _ :=
    Session.freeAll_refused accepts refuses
  rw [List.append_assoc, ← earlier] at goes
  rw [release_apply, installed, values, freeing]
  dsimp only
  rw [counted, List.append_cons done value rest, List.drop_left, Session.freeAll_accepted goes,
    ← Session.calledAll_append]

end PlainList

namespace HookedList

open Workbench

variable {b after : Workbench α}

theorem clear_leaves (cleared : clear b = .ok () after) :
    ∃ c : Chain α, after.list.chain = c.reset := by
  unfold clear at cleared
  simp only [bind_apply, get_apply] at cleared
  cases freed : freeFront b.list.chain.length b with
  | ok done t =>
    rw [freed] at cleared
    cases cleared
    exact ⟨t.list.chain, rfl⟩
  | error panic t =>
    rw [freed] at cleared
    cases cleared

theorem release_leaves (released : release b = .ok () after) :
    ∃ c : Chain α, after.list.chain = c.reset := by
  have start : release b = (tryCatch clear fun panic => do clearUnwinding; throw panic : Act _ Unit)
      ⟨b.list, b.session.noted (.releasing b.list.chain.length)⟩ := rfl
  rw [start, tryCatch_apply] at released
  cases run : clear ⟨b.list, b.session.noted (.releasing b.list.chain.length)⟩ with
  | ok done t =>
    rw [run] at released
    cases released
    exact clear_leaves run
  | error panic t =>
    rw [run] at released
    simp only [bind_apply, throw_apply] at released
    cases unwound : clearUnwinding t <;> rw [unwound] at released <;> cases released

/-- A released list that is cleared once more on its way out has nothing more to give up. -/
theorem release_clear (answer : Answer α) :
    (do release; clear; return answer : Act (Workbench α) (Answer α)) =
      (do release; return answer) := by
  funext b
  rw [bind_apply, bind_apply]
  cases released : release b with
  | ok done after =>
    rcases after with ⟨⟨chain, hooks⟩, t⟩
    rcases release_leaves released with ⟨c, rfl⟩
    rfl
  | error panic after => rfl

end HookedList

namespace Store

variable {s : Store α} {p : PlainStore α} {name : String} {list : HookedList α} {plain : PlainList α}
  [BEq α] [Outlined α] [Stored α]

/-- A release gives all values to the free hook in their order, also where one of the calls panics.
    The list that is left behind is cleared once more, to no effect. -/
structure Releases (s : Store α) (name : String) (list : HookedList α) (values : List α) : Prop where
  quiet : list.hooks.free = none →
    (s.step (.release name)).1 = ⟨.returned .done, [], [.releasing values.length]⟩
  ends : ∀ hook, list.hooks.free = some hook →
    hook.Accepts (s.ledger.frees.earlier hook.id) values →
      (s.step (.release name)).1 = ⟨.returned .done,
        values.map (Call.free hook.id hook.label), [.releasing values.length]⟩
  unwinds : ∀ hook done value rest text, list.hooks.free = some hook →
    values = done ++ value :: rest → hook.Accepts (s.ledger.frees.earlier hook.id) done →
    hook.reply (s.ledger.frees.earlier hook.id ++ done) value = .error text →
    hook.Accepts (s.ledger.frees.earlier hook.id ++ done ++ [value]) rest →
      (s.step (.release name)).1 = ⟨.panicked (.hook text),
        values.map (Call.free hook.id hook.label), [.releasing values.length]⟩
  again : s.retire name (do HookedList.release; HookedList.clear; return .done) =
    s.step (.release name)

theorem Mirrors.releases (mirrors : s.Mirrors p)
    (there : p.lists.find? name = some plain) (same : list.Mirrors plain) :
    s.Releases name list plain.roster.values := by
  have installed : list.hooks.free = plain.hooks.free := congrArg HookSet.free same.hooks
  have step : p.step (.release name) = _ := PlainStore.retire_found there
  have agree := step_agrees mirrors (.release name)
  constructor
  case quiet =>
    intro unhooked
    rw [installed] at unhooked
    rw [agree.report, step, bind_apply, PlainList.release_apply, unhooked,
      Session.freeAll_unhooked, Roster.values_length]
    rfl
  case ends =>
    intro hook free accepts
    rw [mirrors.ledger] at accepts
    rw [installed] at free
    rw [agree.report, step, bind_apply, PlainList.release_accepted (s := p.session) free accepts,
      Roster.values_length]
    exact Session.calledAll_report ..
  case unwinds =>
    intro hook done value rest text free split accepts refuses goes
    rw [mirrors.ledger] at accepts refuses goes
    rw [installed] at free
    rw [agree.report, step, bind_apply,
      PlainList.release_unwinds (s := p.session) free split accepts refuses goes, Roster.values_length]
    exact Session.calledAll_report ..
  case again => rw [HookedList.release_clear]; rfl

/-- A list that was emptied to the end has no more calls to make. -/
theorem Mirrors.emptied_quiet (mirrors : s.Mirrors p) (found : s.lists.find? name = some list)
    (ended : (s.step (.on name .empty)).1.outcome = .returned .done) :
    let emptied := (s.step (.on name .empty)).2
    (emptied.step (.release name)).1 = ⟨.returned .done, [], [.releasing 0]⟩ ∧
      (emptied.step (.drop name)).1 = ⟨.returned .done, [], []⟩ := by
  intro emptied
  rcases mirrors.found found with ⟨plain, there, -⟩
  have agree := step_agrees mirrors (.on name .empty)
  have step := PlainStore.empty_ends there
  have stored : (p.step (.on name .empty)).2.lists.find? name =
      some ⟨plain.roster.reset, plain.hooks⟩ := by
    cases freeing : Session.freeAll plain.hooks.free plain.roster.values
        (p.session.noted (.emptying plain.roster.entries.length)) with
    | ok done t =>
      rw [freeing] at step
      rw [step]
      exact p.lists.find?_put_self name _
    | error panic t =>
      rw [freeing] at step
      rw [agree.report, step] at ended
      cases ended
  rcases agree.stores.mirrored stored with ⟨after, found', same⟩
  have releases := agree.stores.releases stored same
  have drops := agree.stores.drops found' stored same
  cases installed : after.hooks.free with
  | none => exact ⟨releases.quiet installed, drops.dropped.quiet installed⟩
  | some hook =>
    exact ⟨releases.ends hook installed trivial, drops.dropped.ends hook installed trivial⟩

/-- Without a panic a release and a drop give the same values to the free hook. After one, only the
    release goes on: whatever else a list comes to its end by, the values behind are lost. -/
theorem run_releases (ops : List (Op α)) {name : String} {list : HookedList α}
    (found : (Store.empty.run ops).2.lists.find? name = some list) :
    let reached := (Store.empty.run ops).2
    ∃ values, list.chain.values = .ok values ∧ reached.Releases name list values ∧
      reached.Drops name list values ∧ reached.FailsToDuplicate name list values ∧
      ((reached.step (.on name .empty)).1.outcome = .returned .done →
        let emptied := (reached.step (.on name .empty)).2
        (emptied.step (.release name)).1 = ⟨.returned .done, [], [.releasing 0]⟩ ∧
          (emptied.step (.drop name)).1 = ⟨.returned .done, [], []⟩) := by
  intro reached
  have mirrors : reached.Mirrors _ := (run_agrees empty_mirrors ops).2
  rcases run_copyable ops found with ⟨plain, room, there, same, granted⟩
  exact ⟨plain.roster.values, same.represents.values, mirrors.releases there same,
    mirrors.drops found there same, mirrors.failsToDuplicate found there same granted,
    mirrors.emptied_quiet found⟩

/-- The hook panics at the second of three values. A release goes on to the third, a drop does not. -/
theorem run_releases_after_panic :
    let ops : List (Op Value) := [
      .create "a" { free := some (Value.Freeing.policy "free" (.panicAt 2)) },
      .on "a" (.insert .available .tail (.int 1)),
      .on "a" (.insert .available .tail (.int 2)),
      .on "a" (.insert .available .tail (.int 3)),
      .on "a" (.insert .available .head (.int 4)),
      .on "a" (.delete 0)]
    ((Store.empty.run ops).2.step (.release "a")).1 = ⟨.panicked (.hook "free hook panicked"),
        [.free 0 "free" (.int 4), .free 0 "free" (.int 2), .free 0 "free" (.int 3)],
        [.releasing 3]⟩ ∧
      ((Store.empty.run ops).2.step (.drop "a")).1 = ⟨.panicked (.hook "free hook panicked"),
        [.free 0 "free" (.int 4), .free 0 "free" (.int 2)], []⟩ := by
  intro ops
  have present : ((Store.empty.run ops).2.lists.find? "a").map (fun list =>
      (list.hooks.free, list.chain.values.toOption)) =
      some (some ⟨Value.Freeing.policy "free" (.panicAt 2), 0⟩,
        some [.int 4, .int 2, .int 3]) := by
    cbv
  have once : (Store.empty.run ops).2.ledger.frees.earlier 0 = [.int 1] := by
    cbv
  rcases Option.map_eq_some_iff.mp present with ⟨list, found, facts⟩
  simp only [Prod.mk.injEq] at facts
  rcases facts with ⟨installed, held⟩
  rcases run_releases ops found with ⟨values, shown, releases, drops, -, -⟩
  rw [shown] at held
  cases held
  have accepts : Hook.Accepts ⟨Value.Freeing.policy "free" (.panicAt 2), 0⟩
      ((Store.empty.run ops).2.ledger.frees.earlier 0) [.int 4] := by
    rw [once]
    exact ⟨rfl, trivial⟩
  have refuses : (Value.Freeing.policy "free" (.panicAt 2)).reply
      ((Store.empty.run ops).2.ledger.frees.earlier 0 ++ [.int 4]) (.int 2) = .error "free hook panicked" := by
    rw [once]
    rfl
  have goes : Hook.Accepts ⟨Value.Freeing.policy "free" (.panicAt 2), 0⟩
      ((Store.empty.run ops).2.ledger.frees.earlier 0 ++ [.int 4] ++ [.int 2]) [.int 3] := by
    rw [once]
    exact ⟨rfl, trivial⟩
  exact ⟨releases.unwinds _ [.int 4] _ _ _ installed rfl accepts refuses goes,
    drops.dropped.stops _ [.int 4] _ [.int 3] _ installed rfl accepts refuses⟩

end Store

end LinkedSlots
