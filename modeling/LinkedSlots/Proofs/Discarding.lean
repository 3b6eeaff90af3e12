import LinkedSlots.Proofs.Emptying
import LinkedSlots.Proofs.RetireSettling

namespace LinkedSlots

variable {α : Type}

/-- How the values of a list that goes reach its free hook: one after the other, up to the first
    call that panics. The values behind that one are lost. Without the hook, what is reported would
    be `unhooked`. -/
structure Discards (ledger : Ledger α) (hook? : Option (FreeHook α)) (values : List α)
    (halted : String → Panic) (unhooked report : Report α) : Prop where
  quiet : hook? = none → report = unhooked
  ends : ∀ hook, hook? = some hook → hook.Accepts (ledger.frees.earlier hook.id) values →
    report = { unhooked with
      calls := unhooked.calls ++ values.map (Call.free hook.id hook.label) }
  stops : ∀ hook done value rest text, hook? = some hook → values = done ++ value :: rest →
    hook.Accepts (ledger.frees.earlier hook.id) done →
    hook.reply (ledger.frees.earlier hook.id ++ done) value = .error text →
      report = { unhooked with
        outcome := .panicked (halted text)
        calls := unhooked.calls ++ (done ++ [value]).map (Call.free hook.id hook.label) }

namespace Discards

variable {ledger : Ledger α} {hook? : Option (FreeHook α)} {values : List α}
  {halted : String → Panic} {unhooked report : Report α}

/-- Only the first of the values reach the hook, each of them once. -/
theorem freed (discards : Discards ledger hook? values halted unhooked report) :
    ∃ freed, freed <+: values ∧ report.calls = unhooked.calls ++ freeCalls hook? freed := by
  cases hook? with
  | none =>
    rw [discards.quiet rfl]
    exact ⟨[], List.nil_prefix, (List.append_nil _).symm⟩
  | some hook =>
    rcases hook.accepts_or (ledger.frees.earlier hook.id) values with
      accepts | ⟨done, value, rest, text, split, accepts, refuses⟩
    · rw [discards.ends hook rfl accepts]
      exact ⟨values, List.prefix_rfl, rfl⟩
    · rw [discards.stops hook done value rest text rfl split accepts refuses, split,
        List.append_cons]
      exact ⟨done ++ [value], List.prefix_append _ rest, rfl⟩

theorem of_nil (discards : Discards ledger hook? [] halted unhooked report) : report = unhooked := by
  cases hook? with
  | none => exact discards.quiet rfl
  | some hook =>
    rw [discards.ends hook rfl trivial, List.map_nil, List.append_nil]

end Discards

theorem Ledger.enroll?_frees {ι ρ : Type} (ledger : Ledger α) (policy? : Option (Policy ι ρ)) :
    (ledger.enroll? policy?).2.frees = ledger.frees := by
  cases policy? <;> rfl

/-- A new hook has had no calls, and the others have had the ones they had. -/
theorem Ledger.enrollAll_frees (ledger : Ledger α) (policies : PolicySet α) :
    (ledger.enrollAll policies).2.frees = ledger.frees := by
  unfold enrollAll
  dsimp only
  rw [enroll?_frees, enroll?_frees, enroll?_frees]

namespace Session

def report (s : Session α) (outcome : Outcome α) : Report α := ⟨outcome, s.calls, s.log⟩

theorem freeAll_unhooked (values : List α) (s : Session α) : freeAll none values s = .ok () s := by
  induction values with
  | nil => rfl
  | cons value rest ih => exact ih

theorem freeAll_discards {ledger : Ledger α} {hook? : Option (FreeHook α)} {s : Session α}
    (same : s.ledger.frees = ledger.frees) (values : List α) {halted : String → Panic}
    {outcome : Outcome α} (ended : EStateM.Result Panic (Session α) Unit → Report α)
    (returns : ∀ t, ended (.ok () t) = t.report outcome)
    (panics : ∀ text t, ended (.error (.hook text) t) = t.report (.panicked (halted text))) :
    Discards ledger hook? values halted (s.report outcome) (ended (freeAll hook? values s)) := by
  constructor
  case quiet =>
    rintro rfl
    rw [freeAll_unhooked, returns]
  case ends =>
    rintro hook rfl accepts
    rw [← same] at accepts
    rw [freeAll_accepted accepts, returns, report, calledAll_calls, calledAll_log]
    rfl
  case stops =>
    rintro hook done value rest text rfl rfl accepts refuses
    rw [← same] at accepts refuses
    rw [freeAll_refused accepts refuses, panics, report, calledAll_calls, calledAll_log]
    rfl

end Session

def Report.of : EStateM.Result Panic (Session α) (Answer α) → Report α
  | .ok answer s => s.report (.returned answer)
  | .error panic s => s.report (.panicked panic)

theorem Store.conclude_report (lists : Registry String (HookedList α))
    (ended : EStateM.Result Panic (Session α) (Answer α)) :
    (conclude lists ended).1 = .of ended := by
  cases ended <;> rfl

theorem PlainStore.conclude_report (lists : Registry String (PlainList α))
    (ended : EStateM.Result Panic (Session α) (Answer α)) :
    (conclude lists ended).1 = .of ended := by
  cases ended <;> rfl

/-- Where nothing else is under way, the panic of the hook is what ends the operation. -/
theorem Discards.of_freeAll {ledger : Ledger α} {hook? : Option (FreeHook α)} {s : Session α}
    (same : s.ledger.frees = ledger.frees) {values : List α} {answer : Answer α}
    {ended : EStateM.Result Panic (Session α) (Answer α)}
    (run : ended = match Session.freeAll hook? values s with
      | .ok _ t => .ok answer t
      | .error panic t => .error panic t) :
    Discards ledger hook? values .hook (s.report (.returned answer)) (.of ended) := by
  rw [run]
  exact Session.freeAll_discards same values (fun freed => .of (match freed with
      | .ok _ t => .ok answer t
      | .error panic t => .error panic t)) (fun _ => rfl) (fun _ _ => rfl)

namespace Store

variable {s : Store α} {p : PlainStore α} {name : String} {list : HookedList α} {plain : PlainList α}
  [BEq α] [Outlined α] [Stored α]

structure Drops (s : Store α) (name : String) (list : HookedList α) (values : List α) : Prop where
  dropped : Discards s.ledger list.hooks.free values .hook ⟨.returned .done, [], []⟩
    (s.step (.drop name)).1
  replaced : ∀ other t, t.ledger.frees = s.ledger.frees →
    Discards s.ledger list.hooks.free values .hook (t.report (.returned .done))
      (s.replace name other t).1
  created : ∀ policies, Discards s.ledger list.hooks.free values .hook ⟨.returned .done, [], []⟩
    (s.step (.create name policies)).1
  walked : ∀ steps, Discards s.ledger list.hooks.free (WalkStep.leftBy steps values) .hook
    ⟨.returned (.walkedValues (WalkStep.answers steps values)), [], []⟩
    (s.step (.walkTaking name steps)).1

theorem Mirrors.drops (mirrors : s.Mirrors p) (found : s.lists.find? name = some list)
    (there : p.lists.find? name = some plain) (same : list.Mirrors plain) :
    s.Drops name list plain.roster.values := by
  have installed : list.hooks.free = plain.hooks.free := congrArg HookSet.free same.hooks
  have replaced (other : HookedList α) (t : Session α) (frees : t.ledger.frees = s.ledger.frees) :
      Discards s.ledger list.hooks.free plain.roster.values .hook (t.report (.returned .done))
        (s.replace name other t).1 := by
    unfold Store.replace
    rw [found, conclude_report, installed]
    apply Discards.of_freeAll frees
    simp only [bind_apply, HookedList.drop_eq same, PlainList.drop]
    cases Session.freeAll plain.hooks.free plain.roster.values t <;> rfl
  constructor
  case dropped =>
    have step : p.step (.drop name) = _ := PlainStore.retire_found there
    rw [(step_agrees mirrors _).report, mirrors.ledger, installed, step, PlainStore.conclude_report]
    apply Discards.of_freeAll (s := p.session) rfl
    simp only [bind_apply, PlainList.drop]
    cases Session.freeAll plain.hooks.free plain.roster.values p.session <;> rfl
  case replaced => exact replaced
  case created =>
    intro policies
    exact replaced _ { ledger := (s.ledger.enrollAll policies).2 } (Ledger.enrollAll_frees _ _)
  case walked =>
    intro steps
    have step : p.step (.walkTaking name steps) = _ := PlainStore.retire_found there
    rw [(step_agrees mirrors _).report, mirrors.ledger, installed, step, PlainStore.conclude_report]
    apply Discards.of_freeAll (s := p.session) rfl
    simp only [bind_apply, PlainList.walkTaking]
    cases Session.freeAll plain.hooks.free (WalkStep.leftBy steps plain.roster.values) p.session <;>
      rfl

end Store

end LinkedSlots
