import LinkedSlots.Proofs.Keeping

namespace LinkedSlots

variable {α : Type} {hook : DupHook α} {value : α} {asked : List α}

def Session.asking (s : Session α) (hook : DupHook α) (value : α) : Session α :=
  { s with
    ledger.dups := s.ledger.dups.record hook.id value
    calls := s.calls ++ [Call.dup hook.id hook.label value] }

theorem Session.callDup_apply (hook : DupHook α) (value : α) (s : Session α) :
    callDup hook value s = match hook.reply (s.ledger.dups.earlier hook.id) value with
      | .ok reply => .ok reply (s.asking hook value)
      | .error text => .error (.hook text) (s.asking hook value) := by
  simp only [callDup, bind_apply, get_apply, set_apply]
  cases hook.reply (s.ledger.dups.earlier hook.id) value <;> rfl

namespace PlainBench

structure Copied (hook : DupHook α) (asked : List α) (b c : PlainBench α) : Prop where
  values : c.list.roster.values = b.list.roster.values ++
    hook.copies (b.session.ledger.dups.earlier hook.id) asked
  hooks : c.list.hooks = b.list.hooks
  calls : c.session.calls = b.session.calls ++ asked.map (Call.dup hook.id hook.label)

theorem Copied.nil (hook : DupHook α) (b : PlainBench α) : Copied hook [] b b := by
  constructor
  · exact (List.append_nil _).symm
  · rfl
  · exact (List.append_nil _).symm

section Cons

variable {list : PlainList α} {s : Session α} {c : PlainBench α}

theorem Copied.cons {copied : α}
    (reply : hook.reply (s.ledger.dups.earlier hook.id) value = .ok (some copied))
    (later : Copied hook asked ⟨⟨list.roster.push copied, list.hooks⟩, s.asking hook value⟩ c) :
    Copied hook (value :: asked) ⟨list, s⟩ c := by
  constructor
  · have earlier := CallBook.earlier_record s.ledger.dups hook.id value
    rw [later.values]
    show (list.roster.push copied).values ++
      hook.copies ((s.ledger.dups.record hook.id value).earlier hook.id) asked = _
    rw [earlier, Roster.push_values, List.append_assoc]
    simp only [DupHook.copies, reply, List.singleton_append]
  · exact later.hooks
  · rw [later.calls, List.map_cons]
    exact List.append_assoc _ _ _

theorem Copied.refused (reply : hook.reply (s.ledger.dups.earlier hook.id) value = .ok none)
    (entry : LogEntry) :
    Copied hook [value] ⟨list, s⟩ ⟨list, (s.asking hook value).noted entry⟩ := by
  constructor
  · simp [DupHook.copies, reply]
  · rfl
  · rfl

end Cons

theorem appendCopies_cons (hook : DupHook α) (value : α) (rest : List α) (list : PlainList α)
    (s : Session α) :
    appendCopies (some hook) (value :: rest) ⟨list, s⟩ =
      match hook.reply (s.ledger.dups.earlier hook.id) value with
      | .ok none => .ok (.error .duplicateFailed)
        ⟨list, (s.asking hook value).noted (.dupFailed list.roster.entries.length)⟩
      | .ok (some copied) => appendCopies (some hook) rest
        ⟨⟨list.roster.push copied, list.hooks⟩, s.asking hook value⟩
      | .error text => .error (.hook text) ⟨list, s.asking hook value⟩ := by
  have copy : HookedList.copyValue (some hook) value = Session.callDup hook value := rfl
  rw [appendCopies, bind_apply, share_apply, copy, Session.callDup_apply]
  rcases hook.reply (s.ledger.dups.earlier hook.id) value with text | _ | copied
  · rfl
  · rfl
  · rfl

/-- Copies are made of all values, or of those before the one that the hook refuses. -/
theorem appendCopies_ends (hook : DupHook α) (values : List α) (b : PlainBench α) :
    (∃ c, appendCopies (some hook) values b = .ok (.ok ()) c ∧ Copied hook values b c) ∨
      (∃ e asked c, appendCopies (some hook) values b = .ok (.error e) c ∧ values ≠ [] ∧
        Copied hook asked b c) ∨
      ∃ text c, appendCopies (some hook) values b = .error (.hook text) c := by
  -- The hook's reply to a value depends on the values before it, hence the general bench.
  induction values generalizing b with
  | nil => exact .inl ⟨b, rfl, .nil hook b⟩
  | cons value rest ih =>
    rcases b with ⟨list, s⟩
    rw [appendCopies_cons]
    cases reply : hook.reply (s.ledger.dups.earlier hook.id) value with
    | error text => exact .inr (.inr ⟨text, _, rfl⟩)
    | ok copy? =>
      cases copy? with
      | none => exact .inr (.inl ⟨_, [value], _, rfl, List.cons_ne_nil value rest, .refused reply _⟩)
      | some copied =>
        dsimp only
        rcases ih ⟨⟨list.roster.push copied, list.hooks⟩, s.asking hook value⟩ with
          ⟨c, later, copies⟩ | ⟨e, asked, c, later, -, copies⟩ | ⟨text, c, later⟩
        · exact .inl ⟨c, later, copies.cons reply⟩
        · exact .inr (.inl ⟨e, value :: asked, c, later, List.cons_ne_nil value rest,
            copies.cons reply⟩)
        · exact .inr (.inr ⟨text, c, later⟩)

theorem appendCopies_none (values : List α) (list : PlainList α) (s : Session α) :
    appendCopies none values ⟨list, s⟩ =
      .ok (.ok ()) ⟨⟨list.roster.pushAll values, list.hooks⟩, s⟩ := by
  induction values generalizing list with
  | nil => rfl
  | cons value rest ih => exact ih ⟨list.roster.push value, list.hooks⟩

end PlainBench

namespace PlainList

variable (memory : Memory) (list : PlainList α) (s : Session α)

theorem duplicateBy_none [Stored α] :
    list.duplicateBy memory none s =
      match (Roster.empty : Roster α).reserve memory list.roster.entries.length with
      | .error shortage =>
        .ok (.error (.ofShortage shortage)) (s.noted (.allocationFailed shortage))
      | .ok room => .ok (.ok ⟨room.pushAll list.roster.values, list.hooks⟩) s := by
  unfold duplicateBy
  cases (Roster.empty : Roster α).reserve memory list.roster.entries.length with
  | error shortage => rfl
  | ok room =>
    dsimp only
    rw [PlainBench.appendCopies_none]

/-- A copy is finished, or it is dropped and its values go to the free hook that it shares. -/
theorem duplicateBy_some [Stored α] (hook : DupHook α) :
    (∃ copy asked t, list.duplicateBy memory (some hook) s = .ok (.ok copy) t ∧
        copy.roster.values = hook.copies (s.ledger.dups.earlier hook.id) asked ∧
        t.calls = s.calls ++ asked.map (Call.dup hook.id hook.label)) ∨
      (∃ e asked t, list.duplicateBy memory (some hook) s = .ok (.error e) t ∧
        (asked ≠ [] → list.roster.values ≠ []) ∧
        t.calls = s.calls ++ asked.map (Call.dup hook.id hook.label) ++
          freeCalls list.hooks.free (hook.copies (s.ledger.dups.earlier hook.id) asked)) ∨
      ∃ panic t, list.duplicateBy memory (some hook) s = .error panic t ∧
        ¬ (Outcome.panicked panic : Outcome α).Calm := by
  unfold duplicateBy
  cases room : (Roster.empty : Roster α).reserve memory list.roster.entries.length with
  | error shortage =>
    right; left
    refine ⟨.ofShortage shortage, [], _, rfl, fun asked => (asked rfl).elim, ?_⟩
    show s.calls = _
    simp [DupHook.copies]
  | ok grown =>
    have nothing : grown.values = [] := Roster.values_of_reserve room
    dsimp only
    rcases PlainBench.appendCopies_ends hook list.roster.values ⟨⟨grown, list.hooks⟩, s⟩ with
      ⟨⟨copy, t⟩, run, copied⟩ | ⟨e, asked, ⟨copy, t⟩, run, some, copied⟩ | ⟨text, ⟨copy, t⟩, run⟩
    · rw [run]
      left
      refine ⟨copy, list.roster.values, t, rfl, ?_, copied.calls⟩
      rw [copied.values, nothing]
      rfl
    · have values : copy.roster.values = hook.copies (s.ledger.dups.earlier hook.id) asked := by
        rw [copied.values, nothing]
        rfl
      have calls : t.calls = s.calls ++ asked.map (Call.dup hook.id hook.label) := copied.calls
      have hooks : copy.hooks = list.hooks := copied.hooks
      rw [run]
      simp only [bind_apply, drop, values, hooks]
      rcases Session.freeAll_cases list.hooks.free
        (hook.copies (s.ledger.dups.earlier hook.id) asked) t with
        ⟨u, freeing, freed⟩ | ⟨text, u, _, _, _, freeing, -⟩
      · rw [freeing]
        right; left
        refine ⟨e, asked, u, rfl, fun _ => some, ?_⟩
        rw [freed.calls, calls]
      · rw [freeing]
        right; right
        exact ⟨_, u, rfl, id⟩
    · rw [run]
      right; right
      simp only [bind_apply, dropUnwinding, tryCatch_apply]
      cases copy.drop t with
      | ok done u => exact ⟨_, u, rfl, id⟩
      | error panic u => exact ⟨_, u, rfl, id⟩

end PlainList

end LinkedSlots
