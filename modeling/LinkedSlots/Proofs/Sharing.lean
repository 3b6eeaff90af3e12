import LinkedSlots.Proofs.Outfitting
import LinkedSlots.Value.Policy
import Mathlib

namespace LinkedSlots

variable {α : Type}

namespace PolicySet

variable {policies : PolicySet α} {enrolled : Nat} {hook other : AnyHook α}

theorem fit_grows (policies : PolicySet α) (enrolled : Nat) :
    enrolled ≤ (policies.fit enrolled).2 := by
  dsimp only [fit]
  omega

/-- Hooks made together have numbers that no hook had before. -/
theorem fit_fresh (holds : (policies.fit enrolled).1.Holds hook) :
    enrolled ≤ hook.id ∧ hook.id < (policies.fit enrolled).2 := by
  cases hook with
  | dup hook =>
    obtain ⟨policy, given, rfl⟩ := Option.map_eq_some_iff.mp holds
    simp [fit, AnyHook.id, given]
    omega
  | free hook =>
    obtain ⟨policy, given, rfl⟩ := Option.map_eq_some_iff.mp holds
    simp [fit, AnyHook.id, given]
    omega
  | matching hook =>
    obtain ⟨policy, given, rfl⟩ := Option.map_eq_some_iff.mp holds
    simp [fit, AnyHook.id, given]
    omega

theorem fit_single (holds : (policies.fit enrolled).1.Holds hook)
    (holds' : (policies.fit enrolled).1.Holds other) (same : hook.id = other.id) : hook = other := by
  -- Hooks of two kinds have different numbers, so both are the one hook of some kind.
  cases hook <;> cases other <;>
    obtain ⟨policy, given, rfl⟩ := Option.map_eq_some_iff.mp holds <;>
    obtain ⟨policy', given', rfl⟩ := Option.map_eq_some_iff.mp holds' <;>
    simp [AnyHook.id, given, given'] at same ⊢
  · exact Option.some.inj (given.symm.trans given')
  · omega
  · exact Option.some.inj (given.symm.trans given')
  · omega
  · exact Option.some.inj (given.symm.trans given')

end PolicySet

def Call.isOf (hook : AnyHook α) (call : Call α) : Bool :=
  match hook, call with
  | .dup hook, .dup id _ _ => id == hook.id
  | .free hook, .free id _ _ => id == hook.id
  | .matching hook, .matching id _ _ _ => id == hook.id
  | _, _ => false

namespace Ledger

def heard (ledger : Ledger α) : AnyHook α → Nat
  | .dup hook => (ledger.dups.earlier hook.id).length
  | .free hook => (ledger.frees.earlier hook.id).length
  | .matching hook => (ledger.matchings.earlier hook.id).length

def numbers (ledger : Ledger α) (hook : AnyHook α) : List (Call α) → List Nat
  | [] => []
  | call :: rest =>
    (if call.isOf hook then [ledger.heard hook] else []) ++ (ledger.record call).numbers hook rest

theorem heard_record (ledger : Ledger α) (hook : AnyHook α) (call : Call α) :
    (ledger.record call).heard hook = ledger.heard hook + if call.isOf hook then 1 else 0 := by
  have more {ι : Type} (book : CallBook ι) (id other : Nat) (argument : ι) :
      ((book.record id argument).earlier other).length =
        (book.earlier other).length + if id == other then 1 else 0 := by
    rw [earlier_record_append rfl]
    by_cases own : id = other <;> simp [own]
  cases hook <;> cases call <;> simp [heard, record, Call.isOf, more]

/-- No number is left out and none is given twice. -/
theorem numbers_eq (ledger : Ledger α) (hook : AnyHook α) (calls : List (Call α)) :
    ledger.numbers hook calls = List.range' (ledger.heard hook) (calls.countP (Call.isOf hook)) := by
  induction calls generalizing ledger with
  | nil => rfl
  | cons call rest ih =>
    rw [numbers, ih, heard_record]
    cases own : call.isOf hook with
    | false => simp [own]
    | true => simp [own, List.range'_succ]

end Ledger

namespace Store

variable {s : Store α} {name : String} {hooks : HookSet α} {hook : AnyHook α} {op : Op α}
  {past : List (Call α)}

theorem fitted?_enrolled (fits : s.fitted? name op = some hooks) :
    s.enrolledBy op = (op.policies.fit s.ledger.enrolled).2 := by
  cases op with
  | on target op =>
    obtain ⟨same, fits⟩ := Option.ite_none_right_eq_some.mp fits
    obtain ⟨worn, wears, -⟩ := Option.bind_eq_some_iff.mp fits
    obtain ⟨list, found, -⟩ := Option.map_eq_some_iff.mp wears
    subst same
    simp only [enrolledBy, found]
    rfl
  | _ => rfl

/-- A hook that a list is fitted out with is either installed already or a new one. -/
theorem fitted?_holds (fits : s.fitted? name op = some hooks) (holds : hooks.Holds hook) :
    s.Installs hook ∨ (op.policies.fit s.ledger.enrolled).1.Holds hook := by
  cases op with
  | create target policies =>
    obtain ⟨-, ⟨⟩⟩ := Option.ite_none_right_eq_some.mp fits
    exact .inr holds
  | createWithRoom target memory count =>
    obtain ⟨-, ⟨⟩⟩ := Option.ite_none_right_eq_some.mp fits
    cases hook <;> cases holds
  | on target op =>
    obtain ⟨-, fits⟩ := Option.ite_none_right_eq_some.mp fits
    obtain ⟨worn, wears, fits⟩ := Option.bind_eq_some_iff.mp fits
    obtain ⟨⟨fitted, count⟩, outfits, rfl⟩ := Option.map_eq_some_iff.mp fits
    exact (ListOp.outfit?_holds outfits holds).imp_left fun held => ⟨name, worn, wears, held⟩
  | shareHooks target source =>
    exact .inl ⟨source, hooks, (Option.ite_none_right_eq_some.mp fits).2, holds⟩
  | duplicate source target memory =>
    exact .inl ⟨source, hooks, (Option.ite_none_right_eq_some.mp fits).2, holds⟩
  | duplicateWithHook source target memory =>
    exact .inl ⟨source, hooks, (Option.ite_none_right_eq_some.mp fits).2, holds⟩
  | _ => cases fits

structure Numbered (s : Store α) : Prop where
  below : ∀ hook, s.Installs hook → hook.id < s.ledger.enrolled
  single : ∀ hook other, s.Installs hook → s.Installs other → hook.id = other.id → hook = other

theorem numbered_empty : (empty : Store α).Numbered := by
  constructor
  · rintro hook ⟨name, hooks, ⟨⟩, holds⟩
  · rintro hook other ⟨name, hooks, ⟨⟩, holds⟩

theorem enrolledBy_grows (s : Store α) (op : Op α) : s.ledger.enrolled ≤ s.enrolledBy op := by
  cases op with
  | on name op =>
    unfold enrolledBy
    dsimp only
    split
    · exact Nat.le_refl _
    · exact PolicySet.fit_grows _ _
  | _ => exact PolicySet.fit_grows _ _

def Recalls (s : Store α) (past : List (Call α)) : Prop := s.ledger = .told s.ledger.enrolled past

theorem Recalls.records (recalls : s.Recalls past) : s.ledger.Records past := by
  rw [recalls]
  exact Ledger.told_records _ past

variable [BEq α] [Outlined α] [Stored α]

/-- The calls that an operation reports are all that it makes. -/
theorem step_told (recalls : s.Recalls past) (op : Op α) :
    (s.step op).2.ledger = .told (s.enrolledBy op) (past ++ (s.step op).1.calls) := by
  obtain ⟨d, -, ran⟩ := step_speaks (s := s) op
  have run := ran past
  rw [← recalls] at run
  have whole : s.step op = _ := run
  rw [whole]

theorem step_enrolled (recalls : s.Recalls past) (op : Op α) :
    (s.step op).2.ledger.enrolled = s.enrolledBy op := by
  rw [step_told recalls]
  rfl

theorem Recalls.step (recalls : s.Recalls past) (op : Op α) :
    (s.step op).2.Recalls (past ++ (s.step op).1.calls) := by
  unfold Recalls
  rw [step_enrolled recalls]
  exact step_told recalls op

theorem step_brings (recalls : s.Recalls past)
    (installs : (s.step op).2.Installs hook) : s.Installs hook ∨
      (op.policies.fit s.ledger.enrolled).1.Holds hook ∧
        (s.step op).2.ledger.enrolled = (op.policies.fit s.ledger.enrolled).2 := by
  obtain ⟨name, hooks, worn, holds⟩ := installs
  cases step_wears recalls.records op name with
  | same kept => exact .inl ⟨name, hooks, kept ▸ worn, holds⟩
  | fitted fits wears =>
    cases wears.symm.trans worn
    have enrolled := (step_enrolled recalls op).trans (fitted?_enrolled fits)
    exact (fitted?_holds fits holds).imp_right fun fresh => ⟨fresh, enrolled⟩
  | retired retires gone => cases gone.symm.trans worn

theorem Numbered.step (numbered : s.Numbered) (recalls : s.Recalls past)
    (op : Op α) : (s.step op).2.Numbered := by
  constructor
  · intro hook installs
    rcases step_brings recalls installs with old | ⟨fresh, enrolled⟩
    · have grows := enrolledBy_grows s op
      have below := numbered.below hook old
      rw [step_enrolled recalls]
      omega
    · rw [enrolled]
      exact (PolicySet.fit_fresh fresh).2
  · intro hook other installs installs' same
    rcases step_brings recalls installs with old | ⟨fresh, -⟩ <;>
      rcases step_brings recalls installs' with old' | ⟨fresh', -⟩
    · exact numbered.single hook other old old' same
    · have below := numbered.below hook old
      have above := (PolicySet.fit_fresh fresh').1
      omega
    · have below := numbered.below other old'
      have above := (PolicySet.fit_fresh fresh).1
      omega
    · exact PolicySet.fit_single fresh fresh' same

theorem Recalls.run (recalls : s.Recalls past) (ops : List (Op α)) :
    (s.run ops).2.Recalls (past ++ (s.run ops).1.flatMap Report.calls) := by
  induction ops generalizing s past with
  | nil =>
    show s.Recalls (past ++ [])
    rwa [List.append_nil]
  | cons op ops ih =>
    have later := ih (recalls.step op)
    rwa [List.append_assoc] at later

theorem Numbered.run (numbered : s.Numbered) (recalls : s.Recalls past) (ops : List (Op α)) :
    (s.run ops).2.Numbered := by
  induction ops generalizing s past with
  | nil => exact numbered
  | cons op ops ih => exact ih (numbered.step recalls op) (recalls.step op)

/-- A hook that was not there before has a number that no hook had. -/
theorem run_brings (recalls : s.Recalls past) (ops : List (Op α))
    (installs : (s.run ops).2.Installs hook) : s.Installs hook ∨ s.ledger.enrolled ≤ hook.id := by
  induction ops generalizing s past with
  | nil => exact .inl installs
  | cons op ops ih =>
    rcases ih (recalls.step op) installs with before | above
    · exact (step_brings recalls before).imp_right fun fresh => (PolicySet.fit_fresh fresh.1).1
    · have grows := enrolledBy_grows s op
      rw [step_enrolled recalls] at above
      exact .inr (grows.trans above)

theorem run_append (s : Store α) (first later : List (Op α)) :
    (s.run (first ++ later)).2 = ((s.run first).2.run later).2 := by
  induction first generalizing s with
  | nil => rfl
  | cons op first ih => exact ih (s.step op).2

/-- Hooks are shared, but not their installation. After every run the hooks have had exactly the calls
    that were reported, each hook its own ones under the numbers 0, 1, 2, …; a number stands for the
    same hook ever since. Whatever comes next asks only hooks of the lists that it serves and goes by
    what they reply to these calls, and it changes the hooks of no list but one that it fits out. -/
theorem run_shares (ops : List (Op α)) :
    let reached := (Store.empty.run ops).2
    let past := (Store.empty.run ops).1.flatMap Report.calls
    reached.Recalls past ∧
    (∀ hook, Ledger.empty.numbers hook past = List.range (past.countP (Call.isOf hook))) ∧
    (∀ first, first <+: ops → ∀ hook other, (Store.empty.run first).2.Installs hook →
      reached.Installs other → hook.id = other.id → hook = other) ∧
    ∀ op, reached.Speaks op ∧ reached.Outfits op := by
  intro reached past
  have fresh : (empty : Store α).Recalls [] := rfl
  have recalls : reached.Recalls past := fresh.run ops
  refine ⟨recalls, ?_, ?_, fun op => ⟨step_speaks op, step_fits_out recalls.records op⟩⟩
  · intro hook
    rw [Ledger.numbers_eq, List.range_eq_range']
    cases hook <;> rfl
  · rintro first ⟨later, rfl⟩ hook other installs installs' same
    have earlier := fresh.run first
    have numbered := numbered_empty.run fresh first
    have installs' : ((Store.empty.run first).2.run later).2.Installs other :=
      run_append _ first later ▸ installs'
    rcases run_brings earlier later installs' with old | above
    · exact numbered.single hook other installs old same
    · have below := numbered.below hook installs
      omega

/-- One limit counts the copies for three lists, the unfinished one and the refused ones included. What
    `a` has got meanwhile, and what `b` gets, makes no difference to `c`. -/
theorem run_shares_a_limit :
    let limit : AnyHook Value := .dup ⟨Value.Copying.policy "limit" (.limit 3), 0⟩
    let ops : List (Op Value) := [
      .create "a" {
        dup := some (Value.Copying.policy "limit" (.limit 3))
        free := some (Value.Freeing.policy "free" .accept) },
      .on "a" (.insert .available .tail (.int 1)),
      .on "a" (.insert .available .tail (.int 2)),
      .duplicate "a" "b" .available,
      .create "c" {},
      .shareHooks "c" "b",
      .on "c" (.insert .available .tail (.int 3)),
      .on "c" (.insert .available .tail (.int 4)),
      .on "a" (.setDup (Value.Copying.policy "plain" .plain)),
      .duplicateWithHook "c" "d" .available,
      .duplicate "a" "e" .available,
      .duplicate "b" "f" .available]
    let reached := (Store.empty.run ops).2
    let past := (Store.empty.run ops).1.flatMap Report.calls
    past = [.dup 0 "limit" (.int 1), .dup 0 "limit" (.int 2), .dup 0 "limit" (.int 3),
        .dup 0 "limit" (.int 4), .free 1 "free" (.int 3), .dup 2 "plain" (.int 1),
        .dup 2 "plain" (.int 2), .dup 0 "limit" (.int 1)] ∧
      Ledger.empty.numbers limit past = [0, 1, 2, 3, 4] ∧
      (reached.step (.on "b" (.setHooks {}))).2.hooksOf "c" = reached.hooksOf "c" := by
  intro limit ops reached past
  have calls : (Store.empty.run ops).1.flatMap Report.calls = [.dup 0 "limit" (.int 1),
      .dup 0 "limit" (.int 2), .dup 0 "limit" (.int 3), .dup 0 "limit" (.int 4), .free 1 "free" (.int 3),
      .dup 2 "plain" (.int 1), .dup 2 "plain" (.int 2), .dup 0 "limit" (.int 1)] := by
    cbv
  obtain ⟨-, numbered, -, next⟩ := run_shares ops
  refine ⟨calls, ?_, (next _).2.kept "c" id rfl⟩
  rw [numbered limit, calls]
  rfl

end Store

end LinkedSlots
