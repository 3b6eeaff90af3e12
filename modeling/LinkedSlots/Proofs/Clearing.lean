import LinkedSlots.Proofs.Mirroring

namespace LinkedSlots.HookedList

open Workbench

variable {α : Type} {c : Chain α} {q : Roster α} {list : HookedList α} {plain : PlainList α}

theorem dispose_apply (value : α) (list : HookedList α) (s : Session α) :
    dispose value ⟨list, s⟩ = share (Session.free list.hooks.free value) ⟨list, s⟩ := by
  unfold dispose Session.free
  simp only [bind_apply, get_apply]
  cases list.hooks.free <;> rfl

theorem dropFront_cons {handle : Handle} {value : α} {rest : List (Handle × α)}
    (entries : q.entries = (handle, value) :: rest) (count : Nat) :
    (q.takeOut [] handle rest).dropFront count = q.dropFront (count + 1) := by
  simp [Roster.dropFront, Roster.takeOut, entries]

/-- Values go off the front one by one: as many as asked for, or those up to the call that panics. -/
theorem freeFront_ends (rep : c.Represents q) (hooks : HookSet α) (s : Session α) (count : Nat) :
    (∃ c' t, Session.freeAll hooks.free (q.values.take count) s = .ok () t ∧
        freeFront count ⟨⟨c, hooks⟩, s⟩ = .ok () ⟨⟨c', hooks⟩, t⟩ ∧
        c'.Represents (q.dropFront count)) ∨
      ∃ panic c' t, Session.freeAll hooks.free (q.values.take count) s = .error panic t ∧
        freeFront count ⟨⟨c, hooks⟩, s⟩ = .error panic ⟨⟨c', hooks⟩, t⟩ ∧
        c'.Represents (q.dropFront (t.calls.length - s.calls.length)) := by
  have same (q : Roster α) : q.dropFront 0 = q := by simp [Roster.dropFront]
  induction count generalizing c q s with
  | zero =>
    refine .inl ⟨c, s, rfl, rfl, ?_⟩
    rw [same]
    exact rep
  | succ count ih =>
    cases entries : q.entries with
    | nil =>
      have nothing : q.values = [] := congrArg (List.map Prod.snd) entries
      have left : q.dropFront (count + 1) = q := by
        rcases q with ⟨all, vacant, made, capacity⟩
        cases entries
        rfl
      have pop : edit Chain.popFront ⟨⟨c, hooks⟩, s⟩ = .ok none ⟨⟨c, hooks⟩, s⟩ := by
        simp [edit, rep.popFront_nil entries]
      refine .inl ⟨c, s, by rw [nothing]; rfl, by simp [freeFront, pop], ?_⟩
      rw [left]
      exact rep
    | cons entry rest =>
      rcases entry with ⟨handle, value⟩
      rcases rep.popFront_cons entries with ⟨c₁, popped, rep₁⟩
      have pop : edit Chain.popFront ⟨⟨c, hooks⟩, s⟩ = .ok (some value) ⟨⟨c₁, hooks⟩, s⟩ := by
        simp [edit, popped]
      have values : q.values = value :: (q.takeOut [] handle rest).values := by
        simp [Roster.values, Roster.takeOut, entries]
      rw [values, List.take_succ_cons]
      simp only [Session.freeAll, freeFront, bind_apply, pop, dispose_apply, share_apply]
      rcases Session.free_cases hooks.free value s with ⟨t, called, freed⟩ |
        ⟨text, t, called, installed, freed⟩
      · simp only [called]
        rcases ih rep₁ t with ⟨c', u, freeing, run, rep'⟩ | ⟨panic, c', u, freeing, run, rep'⟩
        · rw [dropFront_cons entries] at rep'
          exact .inl ⟨c', u, freeing, run, rep'⟩
        · right
          rw [dropFront_cons entries] at rep'
          refine ⟨panic, c', u, freeing, run, ?_⟩
          rcases Session.freeAll_cases hooks.free ((q.takeOut [] handle rest).values.take count) t with
            ⟨v, ended, -⟩ | ⟨_, v, done, refused, behind, ended, -, installed, later⟩
          · rw [ended] at freeing
            cases freeing
          · rw [ended] at freeing
            cases freeing
            have first := congrArg List.length freed.calls
            have second := congrArg List.length later.calls
            rw [List.length_append, freeCalls_length _ installed] at first second
            -- The calls count the values that are gone, this one and those before the panic.
            have more : u.calls.length - t.calls.length + 1 = u.calls.length - s.calls.length := by
              simp only [List.length_cons, List.length_nil, List.length_append] at first second
              omega
            rw [← more]
            exact rep'
      · simp only [called]
        have one : t.calls.length - s.calls.length = 0 + 1 := by
          rw [freed.calls, List.length_append, freeCalls_length _ installed]
          simp
        refine .inr ⟨_, c₁, t, rfl, rfl, ?_⟩
        rw [one, ← dropFront_cons entries, same]
        exact rep₁

theorem clear_simulates : Simulates Eq Workbench.Mirrors clear (PlainBench.clear (α := α)) := by
  apply simulates_of_represents
  intro c q hooks s rep
  have counted := rep.length
  have ends := freeFront_ends rep hooks s q.entries.length
  rw [← q.values_length, List.take_length, q.values_length] at ends
  rcases ends with ⟨c', t, freeing, run, rep'⟩ | ⟨panic, c', t, freeing, run, rep'⟩
  · have after : clear ⟨⟨c, hooks⟩, s⟩ = .ok () ⟨⟨c'.reset, hooks⟩, t⟩ := by
      unfold clear
      simp only [bind_apply, get_apply, counted, run]
      rfl
    have plainAfter : PlainBench.clear ⟨⟨q, hooks⟩, s⟩ = .ok () ⟨⟨q.reset, hooks⟩, t⟩ := by
      rw [PlainBench.clear_apply, freeing]
    exact .ok after plainAfter rfl (.mk' rep'.reset)
  · have after : clear ⟨⟨c, hooks⟩, s⟩ = .error panic ⟨⟨c', hooks⟩, t⟩ := by
      unfold clear
      simp only [bind_apply, get_apply, counted, run]
    have plainAfter : PlainBench.clear ⟨⟨q, hooks⟩, s⟩ =
        .error panic ⟨⟨q.dropFront (t.calls.length - s.calls.length), hooks⟩, t⟩ := by
      rw [PlainBench.clear_apply, freeing]
    exact .error after plainAfter (.mk' rep')

theorem empty_simulates : Simulates Eq Workbench.Mirrors empty (PlainBench.empty (α := α)) :=
  note_simulates .emptying clear_simulates

theorem clearUnwinding_simulates :
    Simulates Eq Workbench.Mirrors clearUnwinding
      (tryCatch (PlainBench.clear (α := α)) fun _ => throw Panic.abort) :=
  clear_simulates.tryCatch fun _ => .throw Panic.abort

theorem release_simulates : Simulates Eq Workbench.Mirrors release (PlainBench.release (α := α)) := by
  apply note_simulates .releasing
  apply clear_simulates.tryCatch
  intro panic
  exact clearUnwinding_simulates.bind fun _ _ _ => .throw panic

theorem consume_eq {β : Type} {act : Act (Workbench α) β} {plainAct : Act (PlainBench α) β}
    (sim : Simulates Eq Workbench.Mirrors act plainAct) (mirrors : list.Mirrors plain)
    (s : Session α) :
    consume act list s = match plainAct ⟨plain, s⟩ with
      | .ok result p => .ok result p.session
      | .error panic p => .error panic p.session := by
  unfold consume
  rcases (sim ⟨list, s⟩ ⟨plain, s⟩ ⟨mirrors, rfl⟩).cases with
    ⟨b, _, ended, plainEnded, run, run', rfl, after⟩ | ⟨panic, ended, plainEnded, run, run', after⟩
  · simp only [run, run', after.session]
  · simp only [run, run', after.session]

theorem drop_eq (mirrors : list.Mirrors plain) : drop list = plain.drop := by
  funext s
  unfold drop PlainList.drop
  rw [consume_eq clear_simulates mirrors, PlainBench.clear_apply]
  cases Session.freeAll plain.hooks.free plain.roster.values s <;> rfl

theorem dropUnwinding_eq (mirrors : list.Mirrors plain) : dropUnwinding list = plain.dropUnwinding := by
  funext s
  unfold dropUnwinding PlainList.dropUnwinding
  rw [consume_eq clearUnwinding_simulates mirrors, tryCatch_apply, tryCatch_apply,
    PlainBench.clear_apply]
  unfold PlainList.drop
  cases Session.freeAll plain.hooks.free plain.roster.values s <;> rfl

theorem release_eq (mirrors : list.Mirrors plain) : consume release list = plain.release := by
  funext s
  rw [consume_eq release_simulates mirrors]
  unfold PlainList.release
  cases PlainBench.release ⟨plain, s⟩ <;> rfl

/-- The values that a taking walk leaves are freed; which slots it vacated makes no difference. -/
theorem walkTaking_eq (mirrors : list.Mirrors plain) (steps : List WalkStep) :
    consume (walkTaking steps) list = plain.walkTaking steps := by
  funext s
  rcases list with ⟨c, hooks⟩
  rcases mirrors.represents.walkTaking steps with ⟨c', q', run, rep', left⟩
  have took : edit (Chain.walkTaking steps) ⟨⟨c, hooks⟩, s⟩ =
      .ok (WalkStep.answers steps plain.roster.values) ⟨⟨c', hooks⟩, s⟩ := by
    unfold edit
    simp only [run]
  have mirrors' : HookedList.Mirrors ⟨c', hooks⟩ ⟨q', hooks⟩ := ⟨rep', rfl⟩
  have ended := congrFun (drop_eq mirrors') s
  unfold drop consume PlainList.drop at ended
  unfold consume walkTaking PlainList.walkTaking
  simp only [bind_apply, took, ← mirrors.hooks, ← left]
  rw [← ended]
  cases clear ⟨⟨c', hooks⟩, s⟩ <;> rfl

end LinkedSlots.HookedList
