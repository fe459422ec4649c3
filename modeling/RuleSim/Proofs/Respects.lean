import RuleSim.Proofs.Final

namespace RuleSim

variable {ε σ α β : Type} {R : σ → σ → Prop}

inductive Agree (R : σ → σ → Prop) : EStateM.Result ε σ α → EStateM.Result ε σ α → Prop
  | ok (a : α) {s t : σ} (h : R s t) : Agree R (.ok a s) (.ok a t)
  | error (e : ε) {s t : σ} (h : R s t) : Agree R (.error e s) (.error e t)

/-- The action cannot tell related states apart: it succeeds with the same value or fails with the
same error in both, and what it leaves behind is related again. -/
def Respects (R : σ → σ → Prop) (x : EStateM ε σ α) : Prop := ∀ s t, R s t → Agree R (x s) (x t)

theorem Agree.bind {x y : EStateM ε σ α} {f g : α → EStateM ε σ β} {s t : σ}
    (h : Agree R (x s) (y t)) (hf : ∀ a s t, R s t → Agree R (f a s) (g a t)) :
    Agree R ((x >>= f) s) ((y >>= g) t) := by
  change Agree R (EStateM.bind x f s) (EStateM.bind y g t)
  unfold EStateM.bind
  generalize x s = r, y t = r' at h
  cases h with
  | ok a h => exact hf a _ _ h
  | error e h => exact .error e h

theorem Agree.final {x y : EStateM ε σ α} {s t : σ} (h : Agree R (x s) (y t)) :
    R (final x s) (RuleSim.final y t) := by
  unfold RuleSim.final
  generalize x s = r, y t = r' at h
  cases h with
  | ok a h => exact h
  | error e h => exact h

theorem Agree.of_ok {r : EStateM.Result ε σ α} {a : α} {s : σ} (h : Agree R (.ok a s) r) :
    ∃ t, r = .ok a t ∧ R s t := by
  cases h with
  | ok _ h => exact ⟨_, rfl, h⟩

theorem Agree.to_ok {r : EStateM.Result ε σ α} {a : α} {t : σ} (h : Agree R r (.ok a t)) :
    ∃ s, r = .ok a s ∧ R s t := by
  cases h with
  | ok _ h => exact ⟨_, rfl, h⟩

theorem respects_pure (a : α) : Respects R (pure a : EStateM ε σ α) := fun _ _ h => .ok a h

theorem respects_throw (e : ε) : Respects R (throw e : EStateM ε σ α) := fun _ _ h => .error e h

theorem Respects.bind {x : EStateM ε σ α} {f : α → EStateM ε σ β} (hx : Respects R x)
    (hf : ∀ a, Respects R (f a)) : Respects R (x >>= f) :=
  fun s t h => (hx s t h).bind hf

theorem respects_get_bind {f : σ → EStateM ε σ β} (heq : ∀ s t, R s t → f s = f t)
    (hf : ∀ s, Respects R (f s)) : Respects R (get >>= f) := by
  intro s t h
  rw [get_bind, get_bind, heq s t h]
  exact hf t s t h

theorem respects_modify {f : σ → σ} (hf : ∀ s t, R s t → R (f s) (f t)) :
    Respects R (modify f : EStateM ε σ PUnit) := fun s t h => .ok _ (hf s t h)

/-- Both fail with the same error, or both succeed with related values. -/
inductive Match (R : α → α → Prop) : Except ε α → Except ε α → Prop
  | ok {a b : α} (h : R a b) : Match R (.ok a) (.ok b)
  | error (e : ε) : Match R (.error e) (.error e)

theorem Match.bind {S : β → β → Prop} {R : α → α → Prop} {x y : Except ε α} {f g : α → Except ε β}
    (h : Match R x y) (hf : ∀ a b, R a b → Match S (f a) (g b)) : Match S (x >>= f) (y >>= g) := by
  cases h with
  | ok h => exact hf _ _ h
  | error e => exact .error e

end RuleSim
