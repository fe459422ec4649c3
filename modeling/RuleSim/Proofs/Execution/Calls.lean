import RuleSim.Proofs.Execution.Purity

namespace RuleSim

namespace Execution

inductive Elementary : {α : Type} → Exec α → Prop
  | pure {α : Type} (a : α) : Elementary (pure a : Exec α)
  | fail {α : Type} (kind : Error.Kind) : Elementary (fail kind : Exec α)
  | get : Elementary (get : Exec State)
  | record (e : TraceEvent) : Elementary (record e)
  | draw (f : Random → Except Error.Kind (Value × Random)) : Elementary (draw f)
  | onWorld {α : Type} (f : World → Except Error (α × World)) : Elementary (onWorld f)
  | setLocal (name : String) (v : Value) : Elementary (setLocal name v)
  | addEvent (type : String) (delay : Binary64) (interval : Option Binary64) (payload : Payload) :
      Elementary (addEvent type delay interval payload)

theorem Elementary.frames {α : Type} {x : Exec α} (h : Elementary x) (s : State) :
    (final x s).frames = s.frames := by
  cases h with
  | pure a => rfl
  | fail kind => rfl
  | get => rfl
  | record e => rfl
  | draw f => exact (keepsFrame_draw f s).frames
  | onWorld f => exact (keepsFrame_onWorld f s).frames
  | setLocal name v => rfl
  | addEvent type delay interval payload =>
      unfold Execution.addEvent
      rw [final_get_bind]
      cases interval with
      | none => rfl
      | some interval =>
          dsimp only
          split <;> rfl

section Invoke

variable {c : Scope} {name : String} {params : List Param} {body : Expr} {args : List Value}
  {s : State}

theorem invokeAt_misfit (harity : params.length ≠ args.length) (depth : Nat) :
    invokeAt c depth name params body args s =
      .error ⟨.arityMismatch name (toString params.length) args.length, none⟩ s := by
  cases depth <;> exact (enter_eq ..).trans (if_pos harity)

theorem invokeAt_full (harity : params.length = args.length)
    (hfull : c.limits.callDepth ≤ s.frames.length) (depth : Nat) :
    invokeAt c depth name params body args s =
      .error ⟨.limitExceeded (.callDepth c.limits.callDepth (some name)), none⟩ s := by
  cases depth <;> exact (enter_eq ..).trans ((if_neg (not_not_intro harity)).trans (if_pos hfull))

theorem invokeAt_call (harity : params.length = args.length)
    (hroom : s.frames.length < c.limits.callDepth) (depth : Nat) :
    invokeAt c (depth + 1) name params body args s =
      leave name (eval c (invokeAt c depth) body
        { s with frames := frameOf params args :: s.frames }) := by
  refine (enter_eq ..).trans ?_
  rw [if_neg (not_not_intro harity), if_neg (Nat.not_le_of_lt hroom), inFrame_eq]

end Invoke

/-- An open execution comes from a state to a result in a number of steps. A call is refused, or it
evaluates the body of the function in a new frame; nothing else bounds how deep calls are nested.
The frames are within the limit at each step. -/
inductive Runs (c : Scope) :
    {α : Type} → Open α → State → Nat → EStateM.Result Error State α → Prop
  | step {α : Type} {x : Exec α} {s : State} (hx : Elementary x)
      (hroom : s.frames.length ≤ c.limits.callDepth) : Runs c (fun _ => x) s 1 (x s)
  | next {α β : Type} {p : Open α} {f : α → Open β} {s t : State} {a : α} {m n : Nat}
      {r : EStateM.Result Error State β} (hp : Runs c p s m (.ok a t)) (hf : Runs c (f a) t n r) :
      Runs c (fun i => p i >>= fun a => f a i) s (m + n) r
  | failed {α β : Type} {p : Open α} {f : α → Open β} {s t : State} {e : Error} {n : Nat}
      (hp : Runs c p s n (.error e t)) : Runs c (fun i => p i >>= fun a => f a i) s n (.error e t)
  | misfit {name : String} {params : List Param} {body : Expr} {args : List Value} {s : State}
      (harity : params.length ≠ args.length) (hroom : s.frames.length ≤ c.limits.callDepth) :
      Runs c (fun i => i name params body args) s 1
        (.error ⟨.arityMismatch name (toString params.length) args.length, none⟩ s)
  | full {name : String} {params : List Param} {body : Expr} {args : List Value} {s : State}
      (harity : params.length = args.length) (hfull : s.frames.length = c.limits.callDepth) :
      Runs c (fun i => i name params body args) s 1
        (.error ⟨.limitExceeded (.callDepth c.limits.callDepth (some name)), none⟩ s)
  | call {name : String} {params : List Param} {body : Expr} {args : List Value} {s : State}
      {n : Nat} {r : EStateM.Result Error State Value} (harity : params.length = args.length)
      (hroom : s.frames.length < c.limits.callDepth)
      (hbody : Runs c (fun i => eval c i body)
        { s with frames := frameOf params args :: s.frames } n r) :
      Runs c (fun i => i name params body args) s (n + 1) (leave name r)

namespace Runs

variable {c : Scope} {α : Type} {p : Open α} {s : State} {n : Nat}
  {r : EStateM.Result Error State α}

theorem frames (h : Runs c p s n r) : (stateOf r).frames = s.frames := by
  induction h with
  | step hx _ =>
      rw [← final_eq]
      exact hx.frames _
  | next _ _ ihp ihf => exact ihf.trans ihp
  | failed _ ih => exact ih
  | misfit _ _ => rfl
  | full _ _ => rfl
  | @call _ _ _ _ _ _ r _ _ _ ih =>
      have htail : (stateOf r).frames.tail = _ := congrArg List.tail ih
      cases r <;> exact htail

theorem frames_of_ok {a : α} {t : State} (h : Runs c p s n (.ok a t)) : t.frames = s.frames :=
  h.frames

/-- The result is the one of any evaluation that allows enough calls. -/
theorem result (h : Runs c p s n r) {depth : Nat}
    (hd : c.limits.callDepth ≤ s.frames.length + depth) : p (invokeAt c depth) s = r := by
  induction h generalizing depth with
  | step _ _ => rfl
  | next hp _ ihp ihf =>
      exact (bind_of_ok (ihp hd) _).trans (ihf (hp.frames_of_ok.symm ▸ hd))
  | failed _ ih => exact bind_of_error (ih hd) _
  | misfit harity _ => exact invokeAt_misfit harity depth
  | full harity hfull => exact invokeAt_full harity hfull.ge depth
  | call harity hroom _ ih =>
      cases depth with
      | zero => omega
      | succ depth =>
          refine (invokeAt_call harity hroom depth).trans (congrArg (leave _) (ih ?_))
          simp only [List.length_cons]
          omega

end Runs

def Ends (c : Scope) (depth : Nat) {α : Type} (p : Open α) : Prop :=
  ∀ s : State, s.frames.length ≤ c.limits.callDepth →
    c.limits.callDepth ≤ s.frames.length + depth → ∃ n r, Runs c p s n r

variable {c : Scope} {depth : Nat}

theorem Elementary.ends {α : Type} {x : Exec α} (hx : Elementary x) :
    Ends c depth fun _ => x := fun s hroom _ => ⟨1, x s, .step hx hroom⟩

theorem Ends.bind {α β : Type} {p : Open α} {f : α → Open β} (hp : Ends c depth p)
    (hf : ∀ a, Ends c depth (f a)) : Ends c depth fun i => p i >>= fun a => f a i := by
  intro s hroom hd
  obtain ⟨m, r, hm⟩ := hp s hroom hd
  cases r with
  | ok a t =>
      have hframes := hm.frames_of_ok
      obtain ⟨n, r, hn⟩ := hf a t (hframes ▸ hroom) (hframes ▸ hd)
      exact ⟨m + n, r, hm.next hn⟩
  | error e t => exact ⟨m, .error e t, hm.failed⟩

theorem compositional_ends (hi : ∀ name params body args,
    Ends c depth fun i => i name params body args) :
    Compositional c (fun _ => True) (Ends c depth) where
  parts _ _ := trivial
  pure a := (Elementary.pure a).ends
  fail kind := (Elementary.fail kind).ends
  bind := Ends.bind
  read _ := Elementary.get.ends.bind fun _ => (Elementary.pure _).ends
  builtin _ _ _ _ := (Elementary.draw _).ends
  call _ _ _ _ _ := hi _ _ _ _
  clone _ _ := (Elementary.onWorld _).ends
  spawned _ _ := (Elementary.record _).ends
  setField _ _ _ _ _ := (Elementary.onWorld _).ends
  boundCall _ _ _ hp := (Elementary.onWorld _).ends.bind fun _ => hp.bind fun _ => hi _ _ _ _

/-- A call ends if the body does in states with one more frame. -/
theorem ends_call_of_body {name : String} {params : List Param} {body : Expr} {args : List Value}
    (hbody : ∀ d, depth = d + 1 → Ends c d fun i => eval c i body) :
    Ends c depth fun i => i name params body args := by
  intro s hroom hd
  by_cases harity : params.length = args.length
  · by_cases hfull : s.frames.length = c.limits.callDepth
    · exact ⟨1, _, .full harity hfull⟩
    · obtain ⟨d, rfl⟩ : ∃ d, depth = d + 1 := Nat.exists_eq_succ_of_ne_zero (by omega)
      have hlt : s.frames.length < c.limits.callDepth := by omega
      obtain ⟨n, r, hn⟩ := hbody d rfl { s with frames := frameOf params args :: s.frames } hlt
        (by simp only [List.length_cons]; omega)
      exact ⟨n + 1, _, .call harity hlt hn⟩
  · exact ⟨1, _, .misfit harity hroom⟩

/-- The induction is on the calls that are left. -/
theorem ends_call (name : String) (params : List Param) (body : Expr) (args : List Value) :
    Ends c depth fun i => i name params body args := by
  induction depth generalizing name params body args with
  | zero => exact ends_call_of_body fun d hd => nomatch hd
  | succ depth ih =>
      refine ends_call_of_body fun d hd => ?_
      obtain rfl : depth = d := Nat.succ.inj hd
      exact (compositional_ends ih).eval body trivial

/-- The end is found with no more calls than the limit allows. -/
theorem Ends.runs {α : Type} {p : Open α} (h : Ends c c.limits.callDepth p) {s : State}
    (hroom : s.frames.length ≤ c.limits.callDepth) :
    ∃ n, Runs c p s n (p (invokeAt c c.limits.callDepth) s) := by
  obtain ⟨n, r, hn⟩ := h s hroom (Nat.le_add_left _ _)
  exact ⟨n, hn.result (Nat.le_add_left _ _) ▸ hn⟩

theorem runs_eval (c : Scope) (e : Expr) {s : State}
    (hroom : s.frames.length ≤ c.limits.callDepth) :
    ∃ n, Runs c (fun i => eval c i e) s n (evaluate c e s) :=
  Ends.runs ((compositional_ends ends_call).eval e trivial) hroom

end Execution

end RuleSim
