import RuleSim.Proofs.Execution.Closed

namespace RuleSim

namespace Expr

/-- An expression, its parts, their parts and so on. -/
inductive Within : Expr → Expr → Prop
  | refl (e : Expr) : Within e e
  | part {e x y : Expr} (hx : x ∈ e.parts) (h : Within x y) : Within e y

def Copies : Expr → Prop
  | .clone .. => True
  | _ => False

def Draws : Expr → Prop
  | .call function _ => function = "random" ∨ function = "random_range"
  | _ => False

def Copyless (e : Expr) : Prop := ∀ x, e.Within x → ¬ x.Copies

theorem copyless_iff {e : Expr} : e.Copyless ↔ ¬ e.Copies ∧ ∀ x ∈ e.parts, x.Copyless := by
  constructor
  · exact fun h => ⟨h e (.refl e), fun x hx y hy => h y (.part hx hy)⟩
  · intro ⟨he, hparts⟩ y hy
    cases hy with
    | refl => exact he
    | part hx hy => exact hparts _ hx y hy

theorem copyless_of_leaf {e : Expr} (he : ¬ e.Copies) (hleaf : e.parts = []) : e.Copyless :=
  copyless_iff.mpr ⟨he, by simp [hleaf]⟩

end Expr

theorem Builtin.call_of_not_draws {f : Builtin} {function : String} {args : List Expr}
    (hf : ofName? function = some f) (hd : ¬ (Expr.call function args).Draws)
    (values : List Value) (r : Random) : f.call values r = (callPure f values).map (·, r) := by
  have hname : f.name = function := by
    unfold ofName? at hf
    simpa using List.find?_some hf
  cases f with
  | random => exact absurd (.inl hname.symm) hd
  | randomRange => exact absurd (.inr hname.symm) hd
  | _ => rfl

namespace Execution

structure SameFrame (s t : State) : Prop where
  locals : t.locals = s.locals
  frames : t.frames = s.frames
  scheduler : t.scheduler = s.scheduler

theorem SameFrame.refl (s : State) : SameFrame s s := ⟨rfl, rfl, rfl⟩

theorem SameFrame.trans {s t u : State} (h : SameFrame s t) (h' : SameFrame t u) : SameFrame s u :=
  ⟨h'.locals.trans h.locals, h'.frames.trans h.frames, h'.scheduler.trans h.scheduler⟩

def KeepsFrame {α : Type} (x : Exec α) : Prop := ∀ s, SameFrame s (final x s)

theorem keepsFrame_onWorld {α : Type} (f : World → Except Error (α × World)) :
    KeepsFrame (onWorld f) := onWorld_relates SameFrame.refl fun _ _ _ _ => ⟨rfl, rfl, rfl⟩

theorem keepsFrame_draw (f : Random → Except Error.Kind (Value × Random)) :
    KeepsFrame (draw f) := draw_relates SameFrame.refl fun _ _ _ _ => ⟨rfl, rfl, rfl⟩

theorem sameFrame_moving : Moving SameFrame where
  refl := .refl
  trans := .trans
  noted _ _ _ := ⟨rfl, rfl, rfl⟩
  drawn _ _ := ⟨rfl, rfl, rfl⟩
  written _ := ⟨rfl, rfl, rfl⟩
  cloned _ := ⟨rfl, rfl, rfl⟩

theorem keepsFrame_evaluable : Evaluable fun x => KeepsFrame x := sameFrame_moving.evaluable

theorem keepsFrame_invocable : Invocable fun x => KeepsFrame x where
  toEvaluable := keepsFrame_evaluable
  inFrame name frame _ hb s := by
    have hbody := hb { s with frames := frame :: s.frames }
    rw [final_inFrame]
    exact ⟨hbody.locals, congrArg List.tail hbody.frames, hbody.scheduler⟩

theorem keepsFrame_invokeAt (c : Scope) (depth : Nat) : (invokeAt c depth).Satisfies KeepsFrame :=
  invokeAt_closed keepsFrame_invocable c depth

/-- Nothing changes but the random source, and that only if something may be drawn. -/
def Unmoved (draws : Prop) (s t : State) : Prop :=
  ∃ random, t = { s with random } ∧ (¬ draws → random = s.random)

theorem Unmoved.refl (draws : Prop) (s : State) : Unmoved draws s s := ⟨s.random, rfl, fun _ => rfl⟩

theorem Unmoved.trans {draws : Prop} {s t u : State} (h : Unmoved draws s t)
    (h' : Unmoved draws t u) : Unmoved draws s u := by
  obtain ⟨r, rfl, hr⟩ := h
  obtain ⟨r', rfl, hr'⟩ := h'
  exact ⟨r', rfl, fun hd => (hr' hd).trans (hr hd)⟩

theorem Unmoved.world {draws : Prop} {s t : State} (h : Unmoved draws s t) : t.world = s.world := by
  obtain ⟨r, rfl, -⟩ := h
  rfl

def Still (w : World) (draws : Prop) {α : Type} (x : Exec α) : Prop :=
  ∀ s, s.world = w → Unmoved draws s (final x s)

variable {w : World} {draws : Prop}

theorem still_of_final {α : Type} {x : Exec α} (h : ∀ s, final x s = s) : Still w draws x :=
  fun s _ => (h s).symm ▸ .refl draws s

/-- What comes second only counts for values that the first gives. -/
theorem Still.bind {α β : Type} {x : Exec α} {f : α → Exec β} (hx : Still w draws x)
    (hf : ∀ a s t, s.world = w → x s = .ok a t → Still w draws (f a)) :
    Still w draws (x >>= f) := by
  intro s hs
  have h := hx s hs
  rw [final_bind]
  unfold final at h
  cases hxs : x s with
  | ok a t =>
      rw [hxs] at h
      exact h.trans (hf a s t hs hxs t (h.world.trans hs))
  | error e t =>
      rw [hxs] at h
      exact h

theorem still_draw {f : Random → Except Error.Kind (Value × Random)}
    (hf : ¬ draws → ∀ r v r', f r = .ok (v, r') → r' = r) : Still w draws (draw f) := by
  apply draw_relates (R := fun s t => s.world = w → Unmoved draws s t) fun s _ => .refl draws s
  intro s v random hr _
  exact ⟨random, rfl, fun hd => hf hd s.random v random hr⟩

theorem resolveBound_ok {w : World} {id : EntityId} {function : String} {f : BoundFunction}
    (h : w.resolveBound id function = .ok f) : w.boundFunction? id function = some f := by
  unfold World.resolveBound at h
  rw [World.validate_eq] at h
  split at h
  · cases hf : w.boundFunction? id function with
    | none =>
        simp only [hf] at h
        cases h
    | some g =>
        simp only [hf] at h
        cases h
        rfl
  · cases h

theorem onWorld_resolveBound_ok {id : EntityId} {function : String} {f : BoundFunction}
    {s t : State} (h : onWorld (fun w => (w.resolveBound id function).map (·, w)) s = .ok f t) :
    s.world.boundFunction? id function = some f := by
  rw [onWorld_resolveBound] at h
  cases hr : s.world.resolveBound id function with
  | ok g =>
      rw [hr] at h
      cases h
      exact resolveBound_ok hr
  | error e =>
      rw [hr] at h
      cases h

/-- A set of expressions that holds what they consist of and what they call, and in which no entity
is copied. Nothing is drawn either, unless draws are admitted. -/
structure Calm (c : Scope) (w : World) (draws : Prop) (S : Expr → Prop) : Prop where
  parts {e x : Expr} (he : S e) (hx : x ∈ e.parts) : S x
  call {function : String} {args : List Expr} {f : FunctionDecl} (h : S (.call function args))
    (hn : Builtin.ofName? function = none) (hf : c.rules.function? function = some f) : S f.body
  boundCall {e : EntityRef} {function : String} {args : List Expr} {id : EntityId}
    {f : BoundFunction} (h : S (.boundCall e function args))
    (hf : w.boundFunction? id function = some f) : S f.body
  copies {e : Expr} (h : S e) : ¬ e.Copies
  draws {e : Expr} (h : S e) (hd : e.Draws) : draws

namespace Calm

variable {c : Scope} {S : Expr → Prop}

theorem compositional (h : Calm c w draws S) {invoke : Invoke}
    (hi : ∀ name params body args, S body → Still w draws (invoke name params body args)) :
    Compositional c S fun p => Still w draws (p invoke) where
  parts := h.parts
  pure _ := still_of_final fun _ => rfl
  fail _ := still_of_final fun _ => rfl
  bind hx hf := hx.bind fun a _ _ _ _ => hf a
  read _ := still_of_final fun _ => rfl
  builtin hc f hf values := by
    refine still_draw fun hd r v r' hr => ?_
    rw [Builtin.call_of_not_draws hf fun hdraws => hd (h.draws hc hdraws)] at hr
    cases hv : Builtin.callPure f values with
    | ok x =>
        rw [hv] at hr
        cases hr
        rfl
    | error kind =>
        rw [hv] at hr
        cases hr
  call hc hn f hf values := hi _ _ _ _ (h.call hc hn hf)
  clone hc := absurd trivial (h.copies hc)
  spawned hc := absurd trivial (h.copies hc)
  setField hc := absurd trivial (h.copies hc)
  boundCall hc id _ hx := by
    refine Still.bind (still_of_final (final_resolveBound id _)) fun f s t hs hf => ?_
    have hf := onWorld_resolveBound_ok hf
    rw [hs] at hf
    exact hx.bind fun values _ _ _ _ => hi _ _ _ _ (h.boundCall hc hf)

theorem still_enter (name : String) (params : List Param) (args : List Value)
    {body : Exec Value} (hb : Still w draws body) :
    Still w draws (enter c name params args body) := by
  apply enter_relates (R := fun s t => s.world = w → Unmoved draws s t) fun s _ => .refl draws s
  · intro s t frame h hs
    obtain ⟨r, rfl, hr⟩ := h hs
    exact ⟨r, rfl, hr⟩
  · exact hb

theorem still_invokeAt (h : Calm c w draws S) (depth : Nat) (name : String) (params : List Param)
    (body : Expr) (args : List Value) (hb : S body) :
    Still w draws (invokeAt c depth name params body args) := by
  induction depth generalizing name params body args with
  | zero => exact still_enter name params args (still_of_final fun _ => rfl)
  | succ depth ih => exact still_enter name params args ((h.compositional ih).eval body hb)

theorem still_evaluate (h : Calm c w draws S) {e : Expr} (he : S e) :
    Still w draws (evaluate c e) := (h.compositional (h.still_invokeAt _)).eval e he

end Calm

structure Copyless (c : Scope) (w : World) (e : Expr) : Prop where
  expr : e.Copyless
  functions : ∀ name f, c.rules.function? name = some f → f.body.Copyless
  bound : ∀ id name f, w.boundFunction? id name = some f → f.body.Copyless

inductive Reaches (c : Scope) (w : World) (e : Expr) : Expr → Prop
  | refl : Reaches c w e e
  | part {x y : Expr} (h : Reaches c w e x) (hy : y ∈ x.parts) : Reaches c w e y
  | call {function : String} {args : List Expr} {f : FunctionDecl}
      (h : Reaches c w e (.call function args)) (hn : Builtin.ofName? function = none)
      (hf : c.rules.function? function = some f) : Reaches c w e f.body
  | boundCall {r : EntityRef} {function : String} {args : List Expr} {id : EntityId}
      {f : BoundFunction} (h : Reaches c w e (.boundCall r function args))
      (hf : w.boundFunction? id function = some f) : Reaches c w e f.body

def MayDraw (c : Scope) (w : World) (e : Expr) : Prop := ∃ x, Reaches c w e x ∧ x.Draws

namespace Copyless

variable {c : Scope} {e : Expr}

theorem calm (h : Copyless c w e) :
    Calm c w (MayDraw c w e) fun x => x.Copyless ∧ Reaches c w e x where
  parts he hx := ⟨(Expr.copyless_iff.mp he.1).2 _ hx, he.2.part hx⟩
  call hc hn hf := ⟨h.functions _ _ hf, hc.2.call hn hf⟩
  boundCall hc hf := ⟨h.bound _ _ _ hf, hc.2.boundCall hf⟩
  copies he := (Expr.copyless_iff.mp he.1).1
  draws he hd := ⟨_, he.2, hd⟩

theorem unmoved {s : State} (h : Copyless c s.world e) :
    Unmoved (MayDraw c s.world e) s (final (evaluate c e) s) :=
  h.calm.still_evaluate ⟨h.expr, .refl⟩ s rfl

end Copyless

def ready (c : Scope) (rule : Rule) (id : EntityId) (s : State) : State :=
  { s with locals := initialLocals c rule id, frames := [] }

def Holds (c : Scope) (e : Expr) (s t : State) : Prop :=
  ∃ v, evaluate c e s = .ok v t ∧ v.truthy = true

theorem final_runRule_of_not_holds {c : Scope} {rule : Rule} {id : EntityId} {s : State}
    {e : Expr} (he : rule.decl.condition = some e) (h : ∀ t, ¬ Holds c e (ready c rule id s) t) :
    final (runRule c rule id) s = final (evaluate c e) (ready c rule id s) := by
  unfold runRule
  rw [he]
  change final (evaluate c e >>= fun v => _) (ready c rule id s) = _
  rw [final_bind]
  cases hv : evaluate c e (ready c rule id s) with
  | ok v t =>
      have hfalse : v.truthy = false := by
        cases htruthy : v.truthy with
        | false => rfl
        | true => exact absurd ⟨v, hv, htruthy⟩ (h t)
      rw [final_of_ok hv]
      simp only [hfalse]
      rfl
  | error err t => exact (final_of_error hv).symm

/-- Evaluation keeps the locals, the frames and the scheduler. Where nothing can be copied it keeps
all but the random source, and so does a rule whose condition does not hold once it has set up its
locals; the random source changes only where something may be drawn. -/
theorem evaluation_pure (c : Scope) (e : Expr) (s : State) :
    SameFrame s (final (evaluate c e) s) ∧
      (Copyless c s.world e →
        Unmoved (MayDraw c s.world e) s (final (evaluate c e) s) ∧
          ∀ (rule : Rule) (id : EntityId), rule.decl.condition = some e →
            (∀ t, ¬ Holds c e (ready c rule id s) t) →
              Unmoved (MayDraw c s.world e) (ready c rule id s) (final (runRule c rule id) s)) := by
  refine ⟨eval_closed keepsFrame_evaluable c (keepsFrame_invokeAt c _) e s, fun h => ?_⟩
  refine ⟨h.unmoved, fun rule id he hp => ?_⟩
  rw [final_runRule_of_not_holds he hp]
  exact Copyless.unmoved (s := ready c rule id s) h

def burntOut : FunctionDecl where
  name := "burnt_out"
  params := [⟨"oil", none⟩]
  body := .binary .eq (.param "oil") (.literal (.int 0))

def oil : Expr := .field (.named "entity") "Lamp" "oil"

def lampOut : Expr := .call "burnt_out" [oil]

def refill : Rule :=
  ⟨0, 0, { trigger := ⟨"event", some "tick", []⟩, condition := some lampOut, actions := [] }⟩

def tick : Scope where
  rules := { functions := [("burnt_out", burntOut)] }
  limits := {}
  event := ⟨0, "tick", Binary64.zero, {}, 0, none⟩

theorem function?_tick {name : String} {f : FunctionDecl}
    (hf : tick.rules.function? name = some f) : f = burntOut := by
  simp only [tick, RuleSet.function?, Table.find?] at hf
  split at hf
  · exact (Option.some.inj hf).symm
  · cases hf

theorem copyless_lampOut : Copyless tick {} lampOut where
  expr := Expr.copyless_iff.mpr
    ⟨id, List.forall_mem_singleton.mpr (Expr.copyless_of_leaf id rfl)⟩
  functions name f hf := by
    rw [function?_tick hf]
    refine Expr.copyless_iff.mpr ⟨id, List.forall_mem_cons.mpr ⟨?_, List.forall_mem_singleton.mpr ?_⟩⟩
    · exact Expr.copyless_of_leaf id rfl
    · exact Expr.copyless_of_leaf id rfl
  bound id name f hf := by
    cases hf

theorem not_mayDraw_lampOut : ¬ MayDraw tick {} lampOut := by
  have hreach {x : Expr} (h : Reaches tick {} lampOut x) :
      x ∈ [lampOut, oil, burntOut.body, .param "oil", .literal (.int 0)] := by
    induction h with
    | refl => simp
    | part _ hy ih =>
        simp only [List.mem_cons, List.not_mem_nil, or_false] at ih
        rcases ih with rfl | rfl | rfl | rfl | rfl <;>
          simp_all [lampOut, oil, burntOut, Expr.parts, EntityRef.parts]
    | call _ _ hf _ => simp [function?_tick hf]
    | boundCall _ hf _ => cases hf
  rintro ⟨x, hx, hdraws⟩
  have hx := hreach hx
  simp only [List.mem_cons, List.not_mem_nil, or_false] at hx
  rcases hx with rfl | rfl | rfl | rfl | rfl <;>
    simp [lampOut, oil, burntOut, Expr.Draws] at hdraws

theorem refill_keeps_all :
    final (runRule tick refill (.ofNat 0)) {} = ready tick refill (.ofNat 0) {} := by
  have hresult : evaluate tick lampOut (ready tick refill (.ofNat 0) {}) =
    .ok (.bool false) (ready tick refill (.ofNat 0) {}) := rfl
  have hcondition (t : State) : ¬ Holds tick lampOut (ready tick refill (.ofNat 0) {}) t := by
    rintro ⟨v, h, hv⟩
    cases hresult.symm.trans h
    cases hv
  obtain ⟨random, hfinal, hrandom⟩ :=
    ((evaluation_pure tick lampOut {}).2 copyless_lampOut).2 refill (.ofNat 0) rfl hcondition
  rw [hfinal, hrandom not_mayDraw_lampOut]

end Execution

end RuleSim
