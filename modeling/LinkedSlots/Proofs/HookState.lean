import LinkedSlots.Proofs.Twins

namespace LinkedSlots

variable {α : Type}

namespace Hook

variable {ι ρ : Type} {hook : Hook ι ρ} {book other : CallBook ι}

/-- After the calls of either book the hook replies alike, now and after any further calls. -/
def SameState (hook : Hook ι ρ) (book other : CallBook ι) : Prop :=
  ∀ later argument, hook.reply (book.earlier hook.id ++ later) argument =
    hook.reply (other.earlier hook.id ++ later) argument

theorem SameState.now (same : hook.SameState book other) (argument : ι) :
    hook.reply (book.earlier hook.id) argument = hook.reply (other.earlier hook.id) argument := by
  have reply := same [] argument
  rw [List.append_nil, List.append_nil] at reply
  exact reply

theorem SameState.record (same : hook.SameState book other) (id : Nat) (argument : ι) :
    hook.SameState (book.record id argument) (other.record id argument) := by
  intro later next
  by_cases own : hook.id = id
  · rw [← own, CallBook.earlier_record, CallBook.earlier_record, List.append_assoc,
      List.append_assoc]
    exact same ([argument] ++ later) next
  · rw [CallBook.earlier_record_of_ne _ _ own, CallBook.earlier_record_of_ne _ _ own]
    exact same later next

end Hook

structure HookSet.SameState (hooks : HookSet α) (l m : Ledger α) : Prop where
  dup : ∀ hook, hooks.dup = some hook → hook.SameState l.dups m.dups
  free : ∀ hook, hooks.free = some hook → hook.SameState l.frees m.frees
  matching : ∀ hook, hooks.matching = some hook → hook.SameState l.matchings m.matchings

namespace Session

variable {known : HookSet α → Prop} {hooks : HookSet α}

structure Twins (known : HookSet α → Prop) (s t : Session α) : Prop where
  hooks : ∀ hooks, known hooks → hooks.SameState s.ledger t.ledger
  calls : s.calls = t.calls
  log : s.log = t.log

theorem settle_simulates {ρ : Type} {R : Session α → Session α → Prop} (reply : Except String ρ) :
    Simulates Eq R (settle reply) (settle reply) := by
  cases reply with
  | ok value => exact .pure rfl
  | error text => exact .throw _

theorem callFree_simulates (inside : known hooks) {hook : FreeHook α}
    (installed : hooks.free = some hook) (value : α) :
    Simulates Eq (Twins known) (callFree hook value) (callFree hook value) := by
  intro s t same
  have reply := ((same.hooks hooks inside).free hook installed).now value
  unfold callFree
  simp only [bind_apply, get_apply, set_apply, reply]
  refine settle_simulates _ _ _ ⟨?_, by rw [same.calls], same.log⟩
  intro hooks inside
  have states := same.hooks hooks inside
  exact ⟨states.dup, fun hook found => (states.free hook found).record _ value, states.matching⟩

theorem callMatch_simulates (inside : known hooks) {hook : MatchHook α}
    (installed : hooks.matching = some hook) (stored key : α) :
    Simulates Eq (Twins known) (callMatch hook stored key) (callMatch hook stored key) := by
  intro s t same
  have reply := ((same.hooks hooks inside).matching hook installed).now (stored, key)
  unfold callMatch
  simp only [bind_apply, get_apply, set_apply, reply]
  refine settle_simulates _ _ _ ⟨?_, by rw [same.calls], same.log⟩
  intro hooks inside
  have states := same.hooks hooks inside
  exact ⟨states.dup, states.free, fun hook found => (states.matching hook found).record _ (stored, key)⟩

theorem note_simulates (entry : LogEntry) :
    Simulates Eq (Twins known) (note entry : Act (Session α) Unit) (note entry) :=
  fun _ _ same => ⟨rfl, same.hooks, same.calls, congrArg (· ++ [entry]) same.log⟩

theorem free_simulates (inside : known hooks) (value : α) :
    Simulates Eq (Twins known) (free hooks.free value) (free hooks.free value) := by
  cases installed : hooks.free with
  | none => exact .pure rfl
  | some hook => exact callFree_simulates inside installed value

theorem freeAll_simulates (inside : known hooks) (values : List α) :
    Simulates Eq (Twins known) (freeAll hooks.free values) (freeAll hooks.free values) := by
  induction values with
  | nil => exact .pure rfl
  | cons value rest ih =>
    apply (free_simulates inside value).bind
    intro _ _ _
    exact ih

/-- Two searches through level entries stop at the same position. -/
theorem findEntry_simulates {R : Session α → Session α → Prop} {test : α → Act (Session α) Bool}
    (sim : ∀ value, Simulates Eq R (test value) (test value)) {twins rest : List (Twin α)}
    (among : ∀ twin ∈ rest, twin ∈ twins) :
    Simulates (Option.Rel (Twin.Names twins)) R
      (HookedList.findEntry test (rest.map (Twin.entry Twin.left)))
      (HookedList.findEntry test (rest.map (Twin.entry Twin.right))) := by
  induction rest with
  | nil => exact .pure .none
  | cons twin rest ih =>
    apply (sim twin.value).bind
    rintro found _ rfl
    cases found with
    | true => exact .pure (.some ⟨twin.value, among twin List.mem_cons_self⟩)
    | false => exact ih fun other member => among other (List.mem_cons_of_mem _ member)

end Session

end LinkedSlots
