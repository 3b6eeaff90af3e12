import LinkedSlots.Proofs.CopySettling
import LinkedSlots.Proofs.Refinement
import LinkedSlots.Proofs.RetireSettling
import LinkedSlots.Value.Policy

namespace LinkedSlots

variable {α : Type}

theorem Registry.Paired.map_eq {κ β γ δ : Type} {R : β → γ → Prop} {r : Registry κ β}
    {p : Registry κ γ} (paired : r.Paired R p) {shown : β → δ} {shown' : γ → δ}
    (same : ∀ entry other, R entry other → shown entry = shown' other) :
    r.map shown = p.map shown' := by
  rcases r with ⟨entries⟩
  rcases p with ⟨others⟩
  unfold Paired at paired
  unfold Registry.map
  dsimp only at paired ⊢
  congr 1
  induction paired with
  | nil => rfl
  | cons first later ih => rw [List.map_cons, List.map_cons, ih, first.1, same _ _ first.2]

namespace Moment

variable {m : Moment α} {before after : Multiset α}

theorem freed_disposals (calls : m.report.calls.filter Call.isFree = m.disposals) :
    m.freed = m.disposals.filterMap Call.freed? := by
  rw [← calls, List.filterMap_filter]
  apply List.filterMap_congr
  intro call member
  unfold Call.isFree
  cases call <;> rfl

/-- What is given up is freed, once. -/
theorem Settles.freed (settles : m.Settles before after) (calm : m.Calm) :
    m.freed = m.givenUp.2 := by
  rw [freed_disposals settles.calls]
  exact freeCalls_freed _ _ fun gives => calm.installed (settles.holds gives)

theorem Settles.spared (settles : m.Settles before after) (spares : m.op.Spares) : m.freed = [] := by
  have givenUp : m.givenUp.2 = [] := by
    rcases m with ⟨view, op, report⟩
    cases op with
    | on name op => cases op <;> first | rfl | exact spares.elim
    | join name source memory => rfl
    | _ => exact spares.elim
  rw [freed_disposals settles.calls]
  unfold disposals
  rw [givenUp, freeCalls_nil]
  rfl

end Moment

namespace PlainStore

variable {p : PlainStore α} [BEq α] [Outlined α] [Stored α]

/-- Every operation settles, as long as lists with values have free hooks, no hook panics and no
    value is overwritten. -/
theorem step_settled (sorted : p.lists.Sorted)
    (proper : ∀ name list, p.lists.find? name = some list → list.roster.Proper) (op : Op α)
    (calm : (p.moment op).Calm) : p.Settled op := by
  cases op with
  | create name policies => exact create_settled sorted name policies calm
  | createWithRoom name memory count => exact createWithRoom_settled sorted name memory count calm
  | on name op => exact on_settled sorted (proper name) op calm
  | shareHooks name source => exact shareHooks_settled sorted name source
  | join name source memory => exact join_settled sorted name source memory
  | duplicate source name memory => exact duplicate_settled sorted source name memory calm
  | duplicateWithHook source name memory =>
    exact duplicateWithHook_settled sorted source name memory calm
  | walkTaking name steps => exact walkTaking_settled sorted name steps calm
  | release name => exact release_settled sorted name calm
  | drop name => exact drop_settled sorted name calm

end PlainStore

namespace Store

variable {s : Store α} {p : PlainStore α}

theorem Mirrors.view_eq (mirrors : s.Mirrors p) : s.view = p.view := by
  have lists : s.lists.map HookedList.shown = p.lists.map PlainList.shown := by
    apply mirrors.lists.map_eq
    intro list plain same
    unfold HookedList.shown PlainList.shown
    rw [same.represents.entries, same.hooks]
    rfl
  unfold Store.view PlainStore.view
  rw [lists, mirrors.ledger]

theorem Mirrors.proper (mirrors : s.Mirrors p) {name : String} {plain : PlainList α}
    (found : p.lists.find? name = some plain) : plain.roster.Proper := by
  rcases mirrors.mirrored found with ⟨list, -, same⟩
  exact same.represents.proper

variable [BEq α] [Outlined α] [Stored α]

theorem Mirrors.step_settles (mirrors : s.Mirrors p) (sorted : p.lists.Sorted) {op : Op α}
    (calm : (⟨s.view, op, (s.step op).1⟩ : Moment α).Calm) :
    (⟨s.view, op, (s.step op).1⟩ : Moment α).Settles s.view.live (s.step op).2.view.live := by
  have agree := step_agrees mirrors op
  have moment : (⟨s.view, op, (s.step op).1⟩ : Moment α) = p.moment op := by
    rw [mirrors.view_eq, agree.report]
    rfl
  rw [moment] at calm ⊢
  rw [mirrors.view_eq, agree.stores.view_eq, PlainStore.view_live, PlainStore.view_live]
  exact PlainStore.step_settled sorted (fun _ _ found => mirrors.proper found) op calm

/-- A value that was in a live list before the run counts as if the run had stored it. -/
theorem Mirrors.run_balance (mirrors : s.Mirrors p) (sorted : p.lists.Sorted) (ops : List (Op α))
    (calm : ∀ m ∈ s.moments ops, m.Calm) :
    s.view.live + ((s.moments ops).flatMap Moment.inserted + (s.moments ops).flatMap Moment.copied) =
      (s.run ops).2.view.live + (s.moments ops).flatMap Moment.returned +
        (s.moments ops).flatMap Moment.skipped + (s.moments ops).flatMap Moment.freed := by
  induction ops generalizing s p with
  | nil => simp [moments, run]
  | cons op ops ih =>
    have calmNow := calm _ List.mem_cons_self
    have settles := mirrors.step_settles sorted calmNow
    have first := settles.balance
    rw [← settles.freed calmNow] at first
    have later := ih (step_agrees mirrors op).stores (PlainStore.step_sorted sorted op)
      fun m member => calm m (List.mem_cons_of_mem _ member)
    have ended : (s.run (op :: ops)).2 = ((s.step op).2.run ops).2 := rfl
    rw [ended]
    simp only [moments, List.flatMap_cons, ← Multiset.coe_add] at later ⊢
    -- What the first operation leaves live is where the later ones start.
    generalize (⟨s.view, op, (s.step op).1⟩ : Moment α) = m at first ⊢
    generalize (s.step op).2.moments ops = rest at later ⊢
    calc
      s.view.live + ((m.inserted + rest.flatMap Moment.inserted : Multiset α) +
            (m.copied + rest.flatMap Moment.copied)) =
          s.view.live + (m.inserted + m.copied) +
            (rest.flatMap Moment.inserted + rest.flatMap Moment.copied) := by abel
      _ = (s.step op).2.view.live +
            (rest.flatMap Moment.inserted + rest.flatMap Moment.copied) +
            (m.returned + m.skipped + m.freed) := by rw [first]; abel
      _ = _ := by rw [later]; abel

theorem Mirrors.moments_settle (mirrors : s.Mirrors p) (sorted : p.lists.Sorted) (ops : List (Op α))
    (calm : ∀ m ∈ s.moments ops, m.Calm) :
    ∀ m ∈ s.moments ops, ∃ before after, m.Settles before after := by
  induction ops generalizing s p with
  | nil =>
    intro m member
    cases member
  | cons op ops ih =>
    intro m member
    rcases List.mem_cons.mp member with rfl | member
    · exact ⟨_, _, mirrors.step_settles sorted (calm _ List.mem_cons_self)⟩
    · apply ih (step_agrees mirrors op).stores (PlainStore.step_sorted sorted op) _ m member
      exact fun m member => calm m (List.mem_cons_of_mem _ member)

theorem moments_append (s : Store α) (first later : List (Op α)) :
    s.moments (first ++ later) = s.moments first ++ (s.run first).2.moments later := by
  induction first generalizing s with
  | nil => rfl
  | cons op first ih => exact congrArg (_ :: ·) (ih (s.step op).2)

/-- After every step, each value that was stored, or made by copying, is in one list, or was handed
    out, passed over or freed, and only one of these, once. It is freed by the hook of its list. -/
theorem run_accounts (ops : List (Op α)) (calm : ∀ m ∈ Store.empty.moments ops, m.Calm) :
    (∀ first, first <+: ops →
      Accounted (Store.empty.moments first) (Store.empty.run first).2.view.live) ∧
    (∀ m ∈ Store.empty.moments ops,
      m.report.calls.filter Call.isFree = m.disposals ∧ (m.op.Spares → m.freed = [])) ∧
    ((Store.empty.run ops).2.lists.entries = [] → Accounted (Store.empty.moments ops) 0) := by
  have nothing : (empty : Store α).view.live = 0 := rfl
  have accounted : ∀ first, first <+: ops →
      Accounted (Store.empty.moments first) (Store.empty.run first).2.view.live := by
    rintro first ⟨later, rfl⟩
    have balance := (empty_mirrors (α := α)).run_balance .nil first fun m member => by
      apply calm m
      rw [moments_append]
      exact List.mem_append_left _ member
    rw [nothing, Multiset.zero_add] at balance
    exact balance
  refine ⟨accounted, ?_, ?_⟩
  · intro m member
    rcases (empty_mirrors (α := α)).moments_settle .nil ops calm m member with ⟨_, _, settles⟩
    exact ⟨settles.calls, settles.spared⟩
  · intro ended
    have balance := accounted ops (List.prefix_refl ops)
    have gone : (Store.empty.run ops).2.view.live = 0 := by
      unfold view View.live Registry.map Registry.total
      rw [ended]
      rfl
    rw [gone] at balance
    exact balance

/-- A copy that stays unfinished, a join and a walk, after which no list is left. -/
theorem run_accounts_when_all_end :
    let ops : List (Op Value) := [
      .create "a" {
        dup := some (Value.Copying.policy "dup" (.limit 2))
        free := some (Value.Freeing.policy "free" .accept) },
      .on "a" (.insert .available .tail (.int 1)),
      .on "a" (.insert .available .head (.int 2)),
      .on "a" (.insert .available .tail (.int 3)),
      .duplicate "a" "b" .available,
      .create "c" { free := some (Value.Freeing.policy "other" .accept) },
      .on "c" (.insert .available .tail (.int 4)),
      .join "c" "a" .available,
      .on "c" .popFront,
      .walkTaking "c" [.nth 1],
      .release "a"]
    (Store.empty.moments ops).flatMap Moment.freed == [.int 2, .int 1, .int 3] ∧
      (∀ m ∈ Store.empty.moments ops, m.Calm) ∧ Accounted (Store.empty.moments ops) 0 := by
  intro ops
  have checked : ∀ m ∈ Store.empty.moments ops,
      (∀ entry ∈ m.before.lists.entries, entry.2.entries ≠ [] → entry.2.hooks.free.isSome) ∧
        m.report.outcome.Calm ∧ m.op.changes?.isNone := by decide +kernel
  have calm : ∀ m ∈ Store.empty.moments ops, m.Calm := by
    intro m member
    rcases checked m member with ⟨guarded, quiet, unchanged⟩
    refine ⟨guarded, quiet, ?_⟩
    rw [Option.isNone_iff_eq_none.mp unchanged]
    intro changes among
    cases among
  have ended : (Store.empty.run ops).2.lists.entries.isEmpty := by decide +kernel
  refine ⟨by decide +kernel, calm, ?_⟩
  exact (run_accounts ops calm).2.2 (List.isEmpty_iff.mp ended)

end Store

end LinkedSlots
