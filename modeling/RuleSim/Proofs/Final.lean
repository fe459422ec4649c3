namespace RuleSim

variable {ε σ α β : Type}

def final (x : EStateM ε σ α) (s : σ) : σ :=
  match x s with
  | .ok _ s => s
  | .error _ s => s

def stateOf : EStateM.Result ε σ α → σ
  | .ok _ s => s
  | .error _ s => s

theorem final_eq (x : EStateM ε σ α) (s : σ) : final x s = stateOf (x s) := by
  unfold final stateOf
  cases x s <;> rfl

theorem final_of_ok {x : EStateM ε σ α} {s t : σ} {a : α} (h : x s = .ok a t) : final x s = t := by
  rw [final, h]

theorem final_of_error {x : EStateM ε σ α} {s t : σ} {e : ε} (h : x s = .error e t) :
    final x s = t := by
  rw [final, h]

theorem final_bind (x : EStateM ε σ α) (f : α → EStateM ε σ β) (s : σ) :
    final (x >>= f) s = match x s with
      | .ok a t => final (f a) t
      | .error _ t => t := by
  change final (EStateM.bind x f) s = _
  unfold final EStateM.bind
  cases x s <;> rfl

/-- If both parts of a sequence move the state along a transitive relation, so does the sequence. -/
theorem final_bind_trans {R : σ → σ → Prop} (htrans : ∀ {s t u}, R s t → R t u → R s u)
    {x : EStateM ε σ α} {f : α → EStateM ε σ β} (hx : ∀ s, R s (final x s))
    (hf : ∀ a s, R s (final (f a) s)) (s : σ) : R s (final (x >>= f) s) := by
  have h := hx s
  rw [final_bind]
  unfold final at h
  cases hs : x s with
  | ok a t =>
      rw [hs] at h
      exact htrans h (hf a t)
  | error e t =>
      rw [hs] at h
      exact h

theorem final_bind_pure (x : EStateM ε σ α) (f : α → β) (s : σ) :
    final (x >>= fun a => pure (f a)) s = final x s := by
  rw [final_bind]
  unfold final
  cases x s <;> rfl

theorem bind_of_ok {x : EStateM ε σ α} {s t : σ} {a : α} (h : x s = .ok a t)
    (f : α → EStateM ε σ β) : (x >>= f) s = f a t := by
  change EStateM.bind x f s = _
  rw [EStateM.bind, h]

theorem bind_of_error {x : EStateM ε σ α} {s t : σ} {e : ε} (h : x s = .error e t)
    (f : α → EStateM ε σ β) : (x >>= f) s = .error e t := by
  change EStateM.bind x f s = _
  rw [EStateM.bind, h]

theorem bind_ok {x : EStateM ε σ α} {f : α → EStateM ε σ β} {s t : σ} {b : β}
    (h : (x >>= f) s = .ok b t) : ∃ a s', x s = .ok a s' ∧ f a s' = .ok b t := by
  change EStateM.bind x f s = _ at h
  unfold EStateM.bind at h
  cases hs : x s with
  | ok a s' =>
      rw [hs] at h
      exact ⟨a, s', rfl, h⟩
  | error e s' =>
      rw [hs] at h
      cases h

theorem get_bind (f : σ → EStateM ε σ β) (s : σ) : (get >>= f) s = f s s := rfl

theorem set_bind (t : σ) (f : PUnit → EStateM ε σ β) (s : σ) : (set t >>= f) s = f ⟨⟩ t := rfl

theorem final_get_bind (f : σ → EStateM ε σ β) (s : σ) : final (get >>= f) s = final (f s) s := rfl

theorem final_set_bind (t : σ) (f : PUnit → EStateM ε σ β) (s : σ) :
    final (set t >>= f) s = final (f ⟨⟩) t := rfl

theorem final_modify_bind (g : σ → σ) (f : PUnit → EStateM ε σ β) (s : σ) :
    final (modify g >>= f) s = final (f ⟨⟩) (g s) := rfl

theorem bind_ok_iff {x : Except ε α} {f : α → Except ε β} {b : β} :
    x >>= f = .ok b ↔ ∃ a, x = .ok a ∧ f a = .ok b := by
  cases x <;> simp [bind, Except.bind]

theorem pure_ok_iff {a b : α} : (pure a : Except ε α) = .ok b ↔ a = b :=
  iff_of_eq (Except.ok.injEq a b)

end RuleSim
