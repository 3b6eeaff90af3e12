import LinkedSlots.Proofs.Computation

namespace LinkedSlots

variable {ε σ τ β γ β' γ' : Type}

/-- Two computations end alike: both with results that correspond or both with one error, and in
    states that correspond. -/
def Alike (V : β → γ → Prop) (R : σ → τ → Prop) :
    EStateM.Result ε σ β → EStateM.Result ε τ γ → Prop
  | .ok b s, .ok c t => V b c ∧ R s t
  | .error e s, .error d t => e = d ∧ R s t
  | _, _ => False

def Simulates (V : β → γ → Prop) (R : σ → τ → Prop) (act : EStateM ε σ β)
    (plain : EStateM ε τ γ) : Prop :=
  ∀ s t, R s t → Alike V R (act s) (plain t)

variable {V : β → γ → Prop} {W : β' → γ' → Prop} {R : σ → τ → Prop} {act : EStateM ε σ β}
  {plain : EStateM ε τ γ}

theorem Alike.ok {run : EStateM.Result ε σ β} {run' : EStateM.Result ε τ γ} {b : β} {c : γ} {s : σ}
    {t : τ} (ended : run = .ok b s) (ended' : run' = .ok c t) (same : V b c) (states : R s t) :
    Alike V R run run' := by
  rw [ended, ended']
  exact ⟨same, states⟩

theorem Alike.error {run : EStateM.Result ε σ β} {run' : EStateM.Result ε τ γ} {e : ε} {s : σ} {t : τ}
    (ended : run = .error e s) (ended' : run' = .error e t) (states : R s t) : Alike V R run run' := by
  rw [ended, ended']
  exact ⟨rfl, states⟩

/-- The two ways in which a pair of runs can end alike. -/
theorem Alike.cases {run : EStateM.Result ε σ β} {run' : EStateM.Result ε τ γ}
    (alike : Alike V R run run') :
    (∃ b c s t, run = .ok b s ∧ run' = .ok c t ∧ V b c ∧ R s t) ∨
      (∃ e s t, run = .error e s ∧ run' = .error e t ∧ R s t) := by
  cases run with
  | ok b s =>
    cases run' with
    | ok c t => exact .inl ⟨b, c, s, t, rfl, rfl, alike.1, alike.2⟩
    | error d t => exact alike.elim
  | error e s =>
    cases run' with
    | ok c t => exact alike.elim
    | error d t =>
      obtain ⟨rfl, states⟩ := alike
      exact .inr ⟨e, s, t, rfl, rfl, states⟩

theorem Alike.exists_iff {ι : Type} {R : ι → σ → τ → Prop} {run : EStateM.Result ε σ β}
    {run' : EStateM.Result ε τ γ} :
    Alike V (fun s t => ∃ i, R i s t) run run' ↔ ∃ i, Alike V (R i) run run' := by
  cases run <;> cases run' <;> simp [Alike]

theorem Simulates.pure {b : β} {c : γ} (same : V b c) :
    Simulates V R (pure b : EStateM ε σ β) (pure c : EStateM ε τ γ) :=
  fun _ _ states => ⟨same, states⟩

theorem Simulates.get : Simulates R R (get : EStateM ε σ σ) (get : EStateM ε τ τ) :=
  fun _ _ states => ⟨states, states⟩

theorem Simulates.throw (e : ε) :
    Simulates V R (throw e : EStateM ε σ β) (throw e : EStateM ε τ γ) :=
  fun _ _ states => ⟨rfl, states⟩

theorem Alike.bind {next : β → EStateM ε σ β'} {next' : γ → EStateM ε τ γ'} {s : σ} {t : τ}
    (first : Alike V R (act s) (plain t))
    (later : ∀ b c, V b c → Simulates W R (next b) (next' c)) :
    Alike W R ((act >>= next) s) ((plain >>= next') t) := by
  rw [bind_apply, bind_apply]
  rcases first.cases with ⟨b, c, s', t', run, run', same, after⟩ | ⟨e, s', t', run, run', after⟩
  · rw [run, run']
    exact later b c same s' t' after
  · rw [run, run']
    exact ⟨rfl, after⟩

theorem Simulates.bind {next : β → EStateM ε σ β'} {next' : γ → EStateM ε τ γ'}
    (first : Simulates V R act plain)
    (later : ∀ b c, V b c → Simulates W R (next b) (next' c)) :
    Simulates W R (act >>= next) (plain >>= next') :=
  fun s t states => (first s t states).bind later

theorem Simulates.tryCatch {recover : ε → EStateM ε σ β} {recover' : ε → EStateM ε τ γ}
    (first : Simulates V R act plain)
    (later : ∀ e, Simulates V R (recover e) (recover' e)) :
    Simulates V R (tryCatch act recover) (tryCatch plain recover') := by
  intro s t states
  rw [tryCatch_apply, tryCatch_apply]
  rcases (first s t states).cases with ⟨b, c, s', t', run, run', same, after⟩ | ⟨e, s', t', run, run', after⟩
  · rw [run, run']
    exact ⟨same, after⟩
  · rw [run, run']
    exact later e s' t' after

end LinkedSlots
