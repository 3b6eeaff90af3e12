import LinkedSlots.Session

namespace LinkedSlots

section Apply

variable {ε σ β γ : Type}

@[simp] theorem bind_apply (act : EStateM ε σ β) (next : β → EStateM ε σ γ) (s : σ) :
    (act >>= next) s = match act s with
      | .ok b t => next b t
      | .error e t => .error e t := rfl

@[simp] theorem map_apply (change : β → γ) (act : EStateM ε σ β) (s : σ) :
    (change <$> act) s = match act s with
      | .ok b t => .ok (change b) t
      | .error e t => .error e t := rfl

@[simp] theorem pure_apply (b : β) (s : σ) : (pure b : EStateM ε σ β) s = .ok b s := rfl

@[simp] theorem get_apply (s : σ) : (get : EStateM ε σ σ) s = .ok s s := rfl

@[simp] theorem set_apply (s t : σ) : (set t : EStateM ε σ PUnit) s = .ok ⟨⟩ t := rfl

@[simp] theorem modify_apply (change : σ → σ) (s : σ) :
    (modify change : EStateM ε σ PUnit) s = .ok ⟨⟩ (change s) := rfl

@[simp] theorem throw_apply (e : ε) (s : σ) : (throw e : EStateM ε σ β) s = .error e s := rfl

@[simp] theorem tryCatch_apply (act : EStateM ε σ β) (recover : ε → EStateM ε σ β) (s : σ) :
    (tryCatch act recover) s = match act s with
      | .ok b t => .ok b t
      | .error e t => recover e t := by
  change EStateM.tryCatch act recover s = _
  unfold EStateM.tryCatch
  cases act s <;> rfl

@[simp] theorem ofExcept_ok_apply (b : β) (s : σ) :
    (MonadExcept.ofExcept (.ok b : Except ε β) : EStateM ε σ β) s = .ok b s := rfl

@[simp] theorem ofExcept_error_apply (e : ε) (s : σ) :
    (MonadExcept.ofExcept (.error e : Except ε β) : EStateM ε σ β) s = .error e s := rfl

end Apply

end LinkedSlots
