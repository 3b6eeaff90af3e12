import LinkedSlots.Proofs.Computation
import LinkedSlots.Store.Step
import Mathlib.Tactic.Choose

namespace LinkedSlots

variable {α β γ δ κ ρ σ τ υ : Type}

inductive AnyHook (α : Type) where
  | dup (hook : DupHook α)
  | free (hook : FreeHook α)
  | matching (hook : MatchHook α)

def AnyHook.id : AnyHook α → Nat
  | .dup hook => hook.id
  | .free hook => hook.id
  | .matching hook => hook.id

def HookSet.Holds (hooks : HookSet α) : AnyHook α → Prop
  | .dup hook => hooks.dup = some hook
  | .free hook => hooks.free = some hook
  | .matching hook => hooks.matching = some hook

namespace Call

def copying? (id : Nat) : Call α → Option α
  | .dup other _ value => if other = id then some value else none
  | _ => none

def freeing? (id : Nat) : Call α → Option α
  | .free other _ value => if other = id then some value else none
  | _ => none

def comparing? (id : Nat) : Call α → Option (α × α)
  | .matching other _ stored key => if other = id then some (stored, key) else none
  | _ => none

end Call

namespace Ledger

structure Records (ledger : Ledger α) (past : List (Call α)) : Prop where
  dups : ∀ id, ledger.dups.earlier id = past.filterMap (Call.copying? id)
  frees : ∀ id, ledger.frees.earlier id = past.filterMap (Call.freeing? id)
  matchings : ∀ id, ledger.matchings.earlier id = past.filterMap (Call.comparing? id)

def record (ledger : Ledger α) : Call α → Ledger α
  | .dup id _ value => { ledger with dups := ledger.dups.record id value }
  | .free id _ value => { ledger with frees := ledger.frees.record id value }
  | .matching id _ stored key => { ledger with matchings := ledger.matchings.record id (stored, key) }

def recordAll (ledger : Ledger α) (calls : List (Call α)) : Ledger α := calls.foldl record ledger

variable {ledger : Ledger α} {past : List (Call α)}

theorem records_empty : (empty : Ledger α).Records [] := ⟨fun _ => rfl, fun _ => rfl, fun _ => rfl⟩

/-- One more call is the last one of its hook, and makes no difference to the others. -/
theorem earlier_record_append {ι : Type} {book : CallBook ι} {id other : Nat} {arguments : List ι}
    (same : book.earlier other = arguments) (argument : ι) :
    (book.record id argument).earlier other =
      arguments ++ (if id = other then some argument else none).toList := by
  by_cases own : id = other
  · subst own
    rw [CallBook.earlier_record, same, if_pos rfl]
    rfl
  · rw [book.earlier_record_of_ne argument (Ne.symm own), same, if_neg own]
    exact (List.append_nil _).symm

theorem Records.record (records : ledger.Records past) (call : Call α) :
    (ledger.record call).Records (past ++ [call]) := by
  have tail {ι : Type} (argument? : Call α → Option ι) :
      (past ++ [call]).filterMap argument? = past.filterMap argument? ++ (argument? call).toList := by
    rw [List.filterMap_append]
    cases found : argument? call <;> simp [found]
  constructor
  · intro id
    rw [tail]
    cases call with
    | dup other label value => exact earlier_record_append (records.dups id) value
    | free other label value => exact (records.dups id).trans (List.append_nil _).symm
    | matching other label stored key => exact (records.dups id).trans (List.append_nil _).symm
  · intro id
    rw [tail]
    cases call with
    | dup other label value => exact (records.frees id).trans (List.append_nil _).symm
    | free other label value => exact earlier_record_append (records.frees id) value
    | matching other label stored key => exact (records.frees id).trans (List.append_nil _).symm
  · intro id
    rw [tail]
    cases call with
    | dup other label value => exact (records.matchings id).trans (List.append_nil _).symm
    | free other label value => exact (records.matchings id).trans (List.append_nil _).symm
    | matching other label stored key => exact earlier_record_append (records.matchings id) (stored, key)

theorem Records.recordAll (records : ledger.Records past) (calls : List (Call α)) :
    (ledger.recordAll calls).Records (past ++ calls) := by
  induction calls generalizing ledger past with
  | nil => rwa [List.append_nil]
  | cons call rest ih =>
    have later := ih (records.record call)
    rwa [List.append_assoc] at later

/-- The books do not depend on how many hooks there are. -/
theorem Records.enrolled (records : ledger.Records past) (count : Nat) :
    ({ ledger with enrolled := count } : Ledger α).Records past :=
  ⟨records.dups, records.frees, records.matchings⟩

theorem recordAll_enrolled (ledger : Ledger α) (count : Nat) (calls : List (Call α)) :
    ({ ledger with enrolled := count } : Ledger α).recordAll calls =
      { ledger.recordAll calls with enrolled := count } := by
  induction calls generalizing ledger with
  | nil => rfl
  | cons call rest ih =>
    have first : ({ ledger with enrolled := count } : Ledger α).record call =
        { ledger.record call with enrolled := count } := by
      cases call <;> rfl
    show (({ ledger with enrolled := count } : Ledger α).record call).recordAll rest = _
    rw [first]
    exact ih (ledger.record call)

end Ledger

inductive Question (α : Type) : Type → Type where
  | dup (hook : DupHook α) (value : α) : Question α (Option α)
  | free (hook : FreeHook α) (value : α) : Question α Unit
  | matching (hook : MatchHook α) (stored key : α) : Question α Bool

namespace Question

def hook : Question α ρ → AnyHook α
  | .dup hook _ => .dup hook
  | .free hook _ => .free hook
  | .matching hook _ _ => .matching hook

def call : Question α ρ → Call α
  | .dup hook value => .dup hook.id hook.label value
  | .free hook value => .free hook.id hook.label value
  | .matching hook stored key => .matching hook.id hook.label stored key

def reply (past : List (Call α)) : Question α ρ → Except String ρ
  | .dup hook value => hook.reply (past.filterMap (Call.copying? hook.id)) value
  | .free hook value => hook.reply (past.filterMap (Call.freeing? hook.id)) value
  | .matching hook stored key => hook.reply (past.filterMap (Call.comparing? hook.id)) (stored, key)

def ask : Question α ρ → Act (Session α) ρ
  | .dup hook value => Session.callDup hook value
  | .free hook value => Session.callFree hook value
  | .matching hook stored key => Session.callMatch hook stored key

end Question

/-- The questions that hooks are asked one after the other, where each reply decides how it goes on.
    Nothing else about the hooks is known to the one who asks. -/
inductive Dialogue (α γ : Type) where
  | ends (result : γ)
  | ask {ρ : Type} (question : Question α ρ) (next : Except String ρ → Dialogue α γ)

namespace Dialogue

def bind : Dialogue α γ → (γ → Dialogue α δ) → Dialogue α δ
  | .ends result, later => later result
  | .ask question next, later => .ask question fun reply => (next reply).bind later

def map (change : γ → δ) : Dialogue α γ → Dialogue α δ
  | .ends result => .ends (change result)
  | .ask question next => .ask question fun reply => (next reply).map change

def Asks (known : AnyHook α → Prop) : Dialogue α γ → Prop
  | .ends _ => True
  | .ask question next => known question.hook ∧ ∀ reply, (next reply).Asks known

def held (past : List (Call α)) : Dialogue α γ → List (Call α) × γ
  | .ends result => ([], result)
  | .ask question next =>
    let (calls, result) := (next (question.reply past)).held (past ++ [question.call])
    (question.call :: calls, result)

variable {known : AnyHook α → Prop}

theorem Asks.bind {d : Dialogue α γ} {later : γ → Dialogue α δ} (asks : d.Asks known)
    (asks' : ∀ result, (later result).Asks known) : (d.bind later).Asks known := by
  induction d with
  | ends result => exact asks' result
  | ask question next ih => exact ⟨asks.1, fun reply => ih reply (asks.2 reply)⟩

theorem Asks.map {d : Dialogue α γ} (asks : d.Asks known) (change : γ → δ) :
    (d.map change).Asks known := by
  induction d with
  | ends result => trivial
  | ask question next ih => exact ⟨asks.1, fun reply => ih reply (asks.2 reply)⟩

theorem held_bind (d : Dialogue α γ) (later : γ → Dialogue α δ) (past : List (Call α)) :
    (d.bind later).held past =
      ((d.held past).1 ++ ((later (d.held past).2).held (past ++ (d.held past).1)).1,
        ((later (d.held past).2).held (past ++ (d.held past).1)).2) := by
  induction d generalizing past with
  | ends result => simp [bind, held]
  | ask question next ih => simp [bind, held, ih]

theorem held_map (d : Dialogue α γ) (change : γ → δ) (past : List (Call α)) :
    (d.map change).held past = ((d.held past).1, change (d.held past).2) := by
  induction d generalizing past with
  | ends result => rfl
  | ask question next ih => simp [map, held, ih]

end Dialogue

namespace Session

def after (s : Session α) (calls : List (Call α)) (entries : List LogEntry) : Session α where
  ledger := s.ledger.recordAll calls
  calls := s.calls ++ calls
  log := s.log ++ entries

@[simp] theorem after_nil (s : Session α) : s.after [] [] = s := by
  unfold after
  rw [List.append_nil, List.append_nil]
  rfl

theorem after_noted (s : Session α) (entry : LogEntry) : s.after [] [entry] = s.noted entry := by
  unfold after
  rw [List.append_nil]
  rfl

theorem after_called (s : Session α) (call : Call α) :
    s.after [call] [] = { s with ledger := s.ledger.record call, calls := s.calls ++ [call] } := by
  unfold after
  rw [List.append_nil]
  rfl

theorem after_after (s : Session α) (calls more : List (Call α)) (entries others : List LogEntry) :
    (s.after calls entries).after more others = s.after (calls ++ more) (entries ++ others) := by
  unfold after Ledger.recordAll
  rw [List.foldl_append, List.append_assoc, List.append_assoc]

end Session

theorem Question.ask_eq (question : Question α ρ) {s : Session α} {past : List (Call α)}
    (records : s.ledger.Records past) :
    question.ask s = match question.reply past with
      | .ok reply => .ok reply (s.after [question.call] [])
      | .error text => .error (.hook text) (s.after [question.call] []) := by
  rw [Session.after_called]
  cases question with
  | dup hook value =>
    simp only [ask, Session.callDup, bind_apply, get_apply, set_apply, reply, records.dups]
    cases hook.reply _ value <;> rfl
  | free hook value =>
    simp only [ask, Session.callFree, bind_apply, get_apply, set_apply, reply, records.frees]
    cases hook.reply _ value <;> rfl
  | matching hook stored key =>
    simp only [ask, Session.callMatch, bind_apply, get_apply, set_apply, reply, records.matchings]
    cases hook.reply _ (stored, key) <;> rfl

section Converses

variable {known : AnyHook α → Prop} {place : γ → Session α → τ} {place' : δ → Session α → υ}
  {run : Session α → τ}

/-- Some dialogue with known hooks makes the calls of a run and decides its result and log entries.
    It is the same one for all past calls: these matter to the replies and to nothing else. -/
def Converses (known : AnyHook α → Prop) (place : γ → Session α → τ) (run : Session α → τ) : Prop :=
  ∃ d : Dialogue α (γ × List LogEntry), d.Asks known ∧ ∀ s past, s.ledger.Records past →
    run s = place (d.held past).2.1 (s.after (d.held past).1 (d.held past).2.2)

/-- Without a question there is nothing to wait for. -/
theorem Converses.silent (result : γ) (entries : List LogEntry)
    (same : ∀ s, run s = place result (s.after [] entries)) : Converses known place run :=
  ⟨.ends (result, entries), trivial, fun s _ _ => same s⟩

theorem Converses.still (result : γ) (same : ∀ s, run s = place result s) :
    Converses known place run := by
  apply Converses.silent result []
  intro s
  rw [same, Session.after_nil]

theorem Converses.follow {next : τ → υ} (first : Converses known place run)
    (later : ∀ result, Converses known place' fun s => next (place result s)) :
    Converses known place' fun s => next (run s) := by
  obtain ⟨d, asks, ran⟩ := first
  choose e asks' ran' using later
  refine ⟨d.bind fun (result, entries) => (e result).map fun (last, more) => (last, entries ++ more),
    asks.bind fun result => (asks' result.1).map _, ?_⟩
  intro s past records
  have rest := ran' (d.held past).2.1 (s.after (d.held past).1 (d.held past).2.2)
    (past ++ (d.held past).1) (records.recordAll (d.held past).1)
  rw [Session.after_after] at rest
  refine (congrArg next (ran s past records)).trans ?_
  rw [Dialogue.held_bind, Dialogue.held_map]
  exact rest

end Converses

section Talks

variable {known : AnyHook α → Prop} {seat : κ → Session α → σ} {act other : Act σ β}

def seated (seat : κ → Session α → σ) : Except Panic β × κ → Session α → EStateM.Result Panic σ β
  | (.ok result, k), s => .ok result (seat k s)
  | (.error panic, k), s => .error panic (seat k s)

def Talks (known : AnyHook α → Prop) (seat : κ → Session α → σ) (act : Act σ β) : Prop :=
  ∀ k, Converses known (seated seat) fun s => act (seat k s)

theorem Talks.pure (result : β) : Talks known seat (pure result : Act σ β) :=
  fun k => .still (.ok result, k) fun _ => rfl

theorem Talks.throw (panic : Panic) : Talks known seat (throw panic : Act σ β) :=
  fun k => .still (.error panic, k) fun _ => rfl

/-- It does not matter how the computation is written. -/
theorem Talks.of_eq (talks : Talks known seat other)
    (same : ∀ k s, act (seat k s) = other (seat k s)) : Talks known seat act := by
  intro k
  simp only [same]
  exact talks k

theorem Talks.bind {next : β → Act σ γ} (first : Talks known seat act)
    (later : ∀ result, Talks known seat (next result)) : Talks known seat (act >>= next) := by
  intro k
  let go : EStateM.Result Panic σ β → EStateM.Result Panic σ γ
    | .ok result t => next result t
    | .error panic t => .error panic t
  have whole : (fun s => (act >>= next) (seat k s)) = fun s => go (act (seat k s)) := by
    funext s
    rw [bind_apply]
    cases act (seat k s) <;> rfl
  rw [whole]
  apply (first k).follow
  rintro ⟨panic | result, k'⟩
  · exact .still (.error panic, k') fun _ => rfl
  · exact later result k'

theorem Talks.tryCatch {recover : Panic → Act σ β} (first : Talks known seat act)
    (later : ∀ panic, Talks known seat (recover panic)) :
    Talks known seat (tryCatch act recover) := by
  intro k
  let go : EStateM.Result Panic σ β → EStateM.Result Panic σ β
    | .ok result t => .ok result t
    | .error panic t => recover panic t
  have whole : (fun s => MonadExcept.tryCatch act recover (seat k s)) = fun s => go (act (seat k s)) := by
    funext s
    rw [tryCatch_apply]
    cases act (seat k s) <;> rfl
  rw [whole]
  apply (first k).follow
  rintro ⟨panic | result, k'⟩
  · exact later panic k'
  · exact .still (.ok result, k') fun _ => rfl

end Talks

end LinkedSlots
