import RuleSim.Execution.Event
import RuleSim.Proofs.Final

namespace RuleSim

theorem TraceSink.record_enabled (t : TraceSink) (e : TraceEvent) :
    (t.record e).enabled = t.enabled := by
  rw [record]
  split <;> rfl

namespace Execution

variable {α : Type} {s : State}

def noted (e : TraceEvent) (s : State) : State := { s with trace := s.trace.record e }

section World

variable {f : World → Except Error (α × World)}

theorem onWorld_of_ok {p : α × World} (h : f s.world = .ok p) :
    onWorld f s = .ok p.1 { s with world := p.2 } := by
  rw [onWorld, h]

theorem onWorld_of_error {e : Error} (h : f s.world = .error e) : onWorld f s = .error e s := by
  rw [onWorld, h]

theorem onWorld_relates {R : State → State → Prop} (hrefl : ∀ s, R s s)
    (hf : ∀ s a w, f s.world = .ok (a, w) → R s { s with world := w }) (s : State) :
    R s (final (onWorld f) s) := by
  cases hs : f s.world with
  | ok p =>
      rw [final_of_ok (onWorld_of_ok hs)]
      exact hf s p.1 p.2 hs
  | error e =>
      rw [final_of_error (onWorld_of_error hs)]
      exact hrefl s

theorem changeWorld_relates {R : State → State → Prop} (hrefl : ∀ s, R s s)
    {f : World → Except Error World}
    (hf : ∀ s w, f s.world = .ok w → R s { s with world := w }) (s : State) :
    R s (final (changeWorld f) s) := by
  apply onWorld_relates hrefl
  intro s a w h
  cases hw : f s.world with
  | ok v =>
      rw [hw] at h
      cases h
      exact hf s w hw
  | error e =>
      rw [hw] at h
      cases h

theorem onWorld_resolveBound (id : EntityId) (function : String) (s : State) :
    onWorld (fun w => (w.resolveBound id function).map (·, w)) s =
      match s.world.resolveBound id function with
      | .ok f => .ok f s
      | .error e => .error e s := by
  cases h : s.world.resolveBound id function with
  | ok g =>
      exact onWorld_of_ok (f := fun w => (w.resolveBound id function).map (·, w))
        (congrArg (Except.map (·, s.world)) h)
  | error e =>
      exact onWorld_of_error (f := fun w => (w.resolveBound id function).map (·, w))
        (congrArg (Except.map (·, s.world)) h)

theorem final_resolveBound (id : EntityId) (function : String) (s : State) :
    final (onWorld fun w => (w.resolveBound id function).map (·, w)) s = s := by
  rw [final_eq, onWorld_resolveBound]
  cases s.world.resolveBound id function <;> rfl

end World

def draw (f : Random → Except Error.Kind (Value × Random)) : Exec Value := do
  let s ← get
  let (v, random) ← lift (f s.random)
  set { s with random }
  return v

section Random

variable {f : Random → Except Error.Kind (Value × Random)}

theorem draw_of_ok {p : Value × Random} (h : f s.random = .ok p) :
    draw f s = .ok p.1 { s with random := p.2 } := by
  rw [draw, get_bind, h]
  rfl

theorem draw_of_error {kind : Error.Kind} (h : f s.random = .error kind) :
    draw f s = .error ⟨kind, none⟩ s := by
  rw [draw, get_bind, h]
  rfl

theorem draw_relates {R : State → State → Prop} (hrefl : ∀ s, R s s)
    (hf : ∀ s v random, f s.random = .ok (v, random) → R s { s with random }) (s : State) :
    R s (final (draw f) s) := by
  cases hs : f s.random with
  | ok p =>
      rw [final_of_ok (draw_of_ok hs)]
      exact hf s p.1 p.2 hs
  | error kind =>
      rw [final_of_error (draw_of_error hs)]
      exact hrefl s

end Random

theorem enter_eq (c : Scope) (name : String) (params : List Param) (args : List Value)
    (body : Exec Value) (s : State) : enter c name params args body s =
      if params.length ≠ args.length then
        .error ⟨.arityMismatch name (toString params.length) args.length, none⟩ s
      else if c.limits.callDepth ≤ s.frames.length then
        .error ⟨.limitExceeded (.callDepth c.limits.callDepth (some name)), none⟩ s
      else inFrame name (frameOf params args) body s := by
  unfold enter
  split
  · rfl
  · rw [get_bind]
    split
    · rfl
    · rfl

def leave (name : String) : EStateM.Result Error State α → EStateM.Result Error State α
  | .ok v s => .ok v { s with frames := s.frames.tail }
  | .error e s => .error (e.inFrame name) { s with frames := s.frames.tail }

theorem inFrame_eq (name : String) (frame : Fields Value) (body : Exec Value) (s : State) :
    inFrame name frame body s = leave name (body { s with frames := frame :: s.frames }) := by
  rw [inFrame]
  cases body { s with frames := frame :: s.frames } <;> rfl

/-- The frame of a call is dropped in any case. -/
theorem final_inFrame (name : String) (frame : Fields Value) (body : Exec Value) (s : State) :
    final (inFrame name frame body) s =
      { final body { s with frames := frame :: s.frames } with
        frames := (final body { s with frames := frame :: s.frames }).frames.tail } := by
  rw [final_eq, final_eq, inFrame_eq]
  cases body { s with frames := frame :: s.frames } <;> rfl

/-- A call is refused, or its body runs in a frame of its own. -/
theorem final_enter (c : Scope) (name : String) (params : List Param) (args : List Value)
    (body : Exec Value) (s : State) : final (enter c name params args body) s = s ∨
      s.frames.length < c.limits.callDepth ∧
        ∃ frame, final (enter c name params args body) s = final (inFrame name frame body) s := by
  by_cases harity : params.length ≠ args.length
  · exact .inl (final_of_error (by rw [enter_eq, if_pos harity]))
  · by_cases hfull : c.limits.callDepth ≤ s.frames.length
    · exact .inl (final_of_error (by rw [enter_eq, if_neg harity, if_pos hfull]))
    · refine .inr ⟨Nat.lt_of_not_le hfull, frameOf params args, ?_⟩
      rw [final_eq, final_eq, enter_eq, if_neg harity, if_neg hfull]

/-- A call moves the state along a relation if its body does, and if the relation holds of what is
left when the frame of the call is dropped. -/
theorem enter_relates {R : State → State → Prop} (hrefl : ∀ s, R s s)
    (hdrop : ∀ s t frame, R { s with frames := frame :: s.frames } t →
      R s { t with frames := t.frames.tail })
    {body : Exec Value} (hb : ∀ s, R s (final body s)) (c : Scope) (name : String)
    (params : List Param) (args : List Value) (s : State) :
    R s (final (enter c name params args body) s) := by
  rcases final_enter c name params args body s with h | ⟨-, frame, h⟩
  · rw [h]
    exact hrefl s
  · rw [h, final_inFrame]
    exact hdrop s _ frame (hb _)

def restored (name : String) (saved : Option Value) :
    EStateM.Result Error State Unit → EStateM.Result Error State Unit
  | .ok _ s => .ok () (restoreLocal name saved s)
  | .error e s => .error e (restoreLocal name saved s)

theorem keepingLocal_eq (name : String) (body : Exec Unit) (s : State) :
    keepingLocal name body s = restored name (Table.find? s.locals name) (body s) := by
  rw [keepingLocal]
  cases body s <;> rfl

theorem final_keepingLocal (name : String) (body : Exec Unit) (s : State) :
    final (keepingLocal name body) s =
      restoreLocal name (Table.find? s.locals name) (final body s) := by
  rw [final_eq, final_eq, keepingLocal_eq]
  cases body s <;> rfl

theorem attempt_state (c : Scope) (rule : Rule) (id : EntityId) (s : State) (r : EventReport) :
    (attempt c rule id s r).1 = final (runRule c rule id) s ∨
      ∃ message, (attempt c rule id s r).1 =
        noted (.ruleFailed c.rule id message) (final (runRule c rule id) s) := by
  rw [attempt, final_eq]
  cases runRule c rule id s with
  | ok holds t => exact .inl rfl
  | error e t => exact .inr ⟨_, rfl⟩

theorem runRules_rule (c : Scope) (name : String) (rules : List Rule) (s : State)
    (r : EventReport) : runRules { c with rule := name } rules s r = runRules c rules s r := by
  cases rules <;> rfl

end Execution

end RuleSim
