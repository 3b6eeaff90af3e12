import LinkedSlots.Proofs.Account

namespace LinkedSlots

section Keeps

variable {ε σ β γ μ : Type} {measure : σ → μ}

def ending : EStateM.Result ε σ β → σ
  | .ok _ s => s
  | .error _ s => s

def Keeps (measure : σ → μ) (act : EStateM ε σ β) : Prop :=
  ∀ s, measure (ending (act s)) = measure s

theorem Keeps.pure (b : β) : Keeps measure (pure b : EStateM ε σ β) := fun _ => rfl

theorem Keeps.get : Keeps measure (get : EStateM ε σ σ) := fun _ => rfl

theorem Keeps.bind {act : EStateM ε σ β} {next : β → EStateM ε σ γ} (first : Keeps measure act)
    (later : ∀ b, Keeps measure (next b)) : Keeps measure (act >>= next) := by
  intro s
  have before := first s
  rw [bind_apply]
  cases run : act s with
  | ok b t =>
    rw [run] at before
    exact (later b t).trans before
  | error e t =>
    rw [run] at before
    exact before

theorem Keeps.tryCatch {act : Act σ β} {recover : Panic → Act σ β} (first : Keeps measure act)
    (later : ∀ panic, Keeps measure (recover panic)) : Keeps measure (tryCatch act recover) := by
  intro s
  have before := first s
  rw [tryCatch_apply]
  cases run : act s with
  | ok result t =>
    rw [run] at before
    exact before
  | error panic t =>
    rw [run] at before
    exact (later panic t).trans before

theorem Keeps.throw (panic : Panic) : Keeps measure (throw panic : Act σ β) := fun _ => rfl

end Keeps

variable {α β : Type}

namespace Session

def frees (s : Session α) : List (Call α) := s.calls.filter Call.isFree

theorem frees_fresh {s : Session α} (fresh : s.calls = []) : s.frees = [] := by
  unfold frees
  rw [fresh]
  rfl

theorem Freed.frees {hook? : Option (FreeHook α)} {values : List α} {s t : Session α}
    (freed : Freed hook? values s t) : t.frees = s.frees ++ freeCalls hook? values := by
  unfold Session.frees
  rw [freed.calls, List.filter_append, freeCalls_filter]

theorem callMatch_keeps (hook : MatchHook α) (stored key : α) :
    Keeps frees (callMatch hook stored key) := by
  intro s
  have recorded : frees { s with calls := s.calls ++ [Call.matching hook.id hook.label stored key] } =
      frees s := by
    unfold frees
    rw [List.filter_append]
    exact List.append_nil _
  simp only [callMatch, bind_apply, get_apply, set_apply]
  cases hook.reply (s.ledger.matchings.earlier hook.id) (stored, key) with
  | ok reply => exact recorded
  | error text => exact recorded

theorem findEntry_keeps {μ : Type} {measure : Session α → μ} {test : α → Act (Session α) Bool}
    (quiet : ∀ value, Keeps measure (test value)) (entries : List (Handle × α)) :
    Keeps measure (HookedList.findEntry test entries) := by
  induction entries with
  | nil => exact .pure none
  | cons entry rest ih =>
    apply (quiet entry.2).bind
    intro found
    cases found with
    | true => exact .pure (some entry.1)
    | false => exact ih

end Session

namespace PlainBench

def goods (b : PlainBench α) : Multiset α × List (Call α) :=
  (b.list.roster.values, b.session.frees)

theorem edit_keeps {change : Edit (Roster α) β}
    (same : Keeps (fun q => (q.values : Multiset α)) change) : Keeps goods (edit change) := by
  rintro ⟨list, s⟩
  have kept := same list.roster
  rw [edit_apply]
  cases run : change list.roster with
  | ok result q =>
    rw [run] at kept
    exact congrArg (·, s.frees) kept
  | error cause q =>
    rw [run] at kept
    exact congrArg (·, s.frees) kept

theorem share_keeps {act : Act (Session α) β} (quiet : Keeps Session.frees act) :
    Keeps goods (share act) := by
  rintro ⟨list, s⟩
  have kept := quiet s
  rw [share_apply]
  cases run : act s with
  | ok result t =>
    rw [run] at kept
    exact congrArg ((list.roster.values : Multiset α), ·) kept
  | error panic t =>
    rw [run] at kept
    exact congrArg ((list.roster.values : Multiset α), ·) kept

theorem install_keeps (change : HookSet α → Ledger α → HookSet α × Ledger α) :
    Keeps goods (install change) :=
  fun _ => rfl

theorem reserve_keeps [Stored α] (memory : Memory) (count : Nat) :
    Keeps goods (reserve memory count : Act (PlainBench α) _) := by
  rintro ⟨list, s⟩
  rw [reserve_apply]
  cases room : list.roster.reserve memory count with
  | error shortage => rfl
  | ok grown =>
    unfold ending goods
    rw [Roster.values_of_reserve room]

theorem search_keeps [BEq α] (key : α) : Keeps goods (search key) := by
  apply Keeps.get.bind
  intro b
  dsimp only
  cases b.list.hooks.matching with
  | none => exact share_keeps (Session.findEntry_keeps (fun _ => .pure _) _)
  | some hook =>
    exact share_keeps (Session.findEntry_keeps (fun stored => Session.callMatch_keeps hook stored key) _)

theorem searchWithHook_keeps (key : α) : Keeps goods (searchWithHook key) := by
  apply Keeps.get.bind
  intro b
  dsimp only
  cases b.list.hooks.matching with
  | none => exact .pure none
  | some hook =>
    exact share_keeps (Session.findEntry_keeps (fun stored => Session.callMatch_keeps hook stored key) _)

end PlainBench

namespace Roster

theorem rotateTailToHead_keeps :
    Keeps (fun q : Roster α => (q.values : Multiset α)) (modify rotateTailToHead : Edit (Roster α) Unit) := by
  intro q
  apply Multiset.coe_eq_coe.mpr
  show (rotateTailToHead q).values.Perm q.values
  unfold rotateTailToHead values
  rcases List.eq_nil_or_concat' q.entries with entries | ⟨front, last, entries⟩
  · rw [entries]
    simp [entries]
  · rw [entries]
    simpa [withEntries] using (List.perm_append_singleton last.2 (front.map Prod.snd)).symm

theorem rotateHeadToTail_keeps :
    Keeps (fun q : Roster α => (q.values : Multiset α)) (modify rotateHeadToTail : Edit (Roster α) Unit) := by
  intro q
  apply Multiset.coe_eq_coe.mpr
  show (rotateHeadToTail q).values.Perm q.values
  unfold rotateHeadToTail values
  cases entries : q.entries with
  | nil => simp [entries]
  | cons first rest => simp [withEntries]

end Roster

end LinkedSlots
