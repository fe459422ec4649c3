import RuleSim.Proofs.Execution.Accounts

namespace RuleSim

def Unplaced {α : Type} (x : Except Error α) : Prop := ∀ e, x = .error e → e.context = none

theorem unplaced_ok {α : Type} (a : α) : Unplaced (.ok a) := nofun

theorem unplaced_error {α : Type} (kind : Error.Kind) :
    Unplaced (.error ⟨kind, none⟩ : Except Error α) := by
  rintro e ⟨⟩
  rfl

theorem Unplaced.map {α β : Type} {x : Except Error α} (hx : Unplaced x) (f : α → β) :
    Unplaced (x.map f) := by
  intro e he
  cases x with
  | ok a => cases he
  | error e' =>
      cases he
      exact hx e rfl

namespace World

theorem unplaced_guarded {α : Type} {w : World} {id : EntityId} {f : Except Error α}
    (hf : Unplaced f) : Unplaced (do w.validate id; f) := by
  rw [validate_eq]
  split
  · exact hf
  · exact unplaced_error _

theorem unplaced_setField (w : World) (id : EntityId) (component field : String) (v : Value) :
    Unplaced (w.setField id component field v) := by
  apply unplaced_guarded
  split <;> exact unplaced_ok _

theorem unplaced_addComponent (w : World) (id : EntityId) (component : String)
    (init : List (String × Value)) : Unplaced (w.addComponent id component init) :=
  unplaced_guarded (unplaced_ok _)

theorem unplaced_removeComponent (w : World) (id : EntityId) (component : String) :
    Unplaced (w.removeComponent id component) := by
  apply unplaced_guarded
  split <;> exact unplaced_ok _

theorem unplaced_clone (w : World) (source : EntityId) : Unplaced (w.clone source none) :=
  unplaced_guarded (unplaced_ok _)

theorem unplaced_resolveBound (w : World) (id : EntityId) (name : String) :
    Unplaced (w.resolveBound id name) := by
  apply unplaced_guarded
  split
  · exact unplaced_ok _
  · exact unplaced_error _

theorem unplaced_delete (w : World) (id : EntityId) : Unplaced (w.delete id) := by
  rw [delete, EntityStore.destroy]
  split
  · exact unplaced_ok _
  · exact unplaced_error _

end World

theorem Scheduler.unplaced_scheduleRecurringAfter (s : Scheduler) (type : String)
    (delay interval : Binary64) (payload : Payload) :
    Unplaced (s.scheduleRecurringAfter type delay interval payload) := by
  rw [scheduleRecurringAfter]
  split
  · exact unplaced_ok _
  · exact unplaced_error _

namespace Execution

inductive Callee where
  | function (name : String)
  | bound (id : EntityId) (name : String)

def Callee.label : Callee → String
  | function name => name
  | bound id name => name ++ "@" ++ id.text

structure Call where
  callee : Callee
  frame : Fields Value

abbrev callBound (c : Scope) (depth : Nat) (id : EntityId) (name : String)
    (args : Exec (List Value)) : Exec Value := do
  let f ← onWorld fun w => (w.resolveBound id name).map (·, w)
  let values ← args
  invokeAt c depth (name ++ "@" ++ id.text) f.params f.body values

/-- An execution in the bodies of the calls `calls`, the innermost first, fails because an error is
raised in the bodies of the calls `calls'`, in the state `u`. A step raises it, or a call that is
rejected and whose body is not evaluated. -/
inductive Raises (c : Scope) : {α : Type} → (calls : List Call) → Exec α → State →
    (calls' : List Call) → Error.Kind → (u : State) → Prop
  | step {α : Type} {calls : List Call} {x : Exec α} {s t : State} {kind : Error.Kind}
      (hx : Elementary x) (h : x s = .error ⟨kind, none⟩ t) : Raises c calls x s calls kind s
  | misfit {calls : List Call} {depth : Nat} {label : String} {params : List Param} {body : Expr}
      {args : List Value} {s : State} (harity : params.length ≠ args.length) :
      Raises c calls (invokeAt c depth label params body args) s calls
        (.arityMismatch label (toString params.length) args.length) s
  | full {calls : List Call} {depth : Nat} {label : String} {params : List Param} {body : Expr}
      {args : List Value} {s : State} (harity : params.length = args.length)
      (hfull : c.limits.callDepth ≤ s.frames.length) :
      Raises c calls (invokeAt c depth label params body args) s calls
        (.limitExceeded (.callDepth c.limits.callDepth (some label))) s
  | function {calls calls' : List Call} {depth : Nat} {name : String} {f : FunctionDecl}
      {args : List Value} {s u : State} {kind : Error.Kind} (hf : c.rules.function? name = some f)
      (harity : f.params.length = args.length) (hroom : s.frames.length < c.limits.callDepth)
      (h : Raises c (⟨.function name, frameOf f.params args⟩ :: calls)
        (eval c (invokeAt c depth) f.body)
        { s with frames := frameOf f.params args :: s.frames } calls' kind u) :
      Raises c calls (invokeAt c (depth + 1) name f.params f.body args) s calls' kind u
  | bound {calls calls' : List Call} {depth : Nat} {id : EntityId} {name : String}
      {f : BoundFunction} {x : Exec (List Value)} {args : List Value} {s t u : State}
      {kind : Error.Kind} (hf : s.world.resolveBound id name = .ok f) (hargs : x s = .ok args t)
      (harity : f.params.length = args.length) (hroom : t.frames.length < c.limits.callDepth)
      (h : Raises c (⟨.bound id name, frameOf f.params args⟩ :: calls)
        (eval c (invokeAt c depth) f.body)
        { t with frames := frameOf f.params args :: t.frames } calls' kind u) :
      Raises c calls (callBound c (depth + 1) id name x) s calls' kind u
  | first {α β : Type} {calls calls' : List Call} {x : Exec α} {f : α → Exec β} {s u : State}
      {kind : Error.Kind} (h : Raises c calls x s calls' kind u) :
      Raises c calls (x >>= f) s calls' kind u
  | later {α β : Type} {calls calls' : List Call} {x : Exec α} {f : α → Exec β} {s t u : State}
      {a : α} {kind : Error.Kind} (hx : x s = .ok a t) (h : Raises c calls (f a) t calls' kind u) :
      Raises c calls (x >>= f) s calls' kind u
  | keepingLocal {calls calls' : List Call} {name : String} {x : Exec Unit} {s u : State}
      {kind : Error.Kind} (h : Raises c calls x s calls' kind u) :
      Raises c calls (keepingLocal name x) s calls' kind u

def Traced (c : Scope) (calls : List Call) {α : Type} (x : Exec α) (s : State) : Prop :=
  ∃ calls' kind u, Raises c calls x s calls' kind u ∧ u.frames = calls'.map (·.frame) ∧
    calls'.length ≤ c.limits.callDepth

def raised (kind : Error.Kind) (calls : List Call) : Error :=
  calls.foldl (fun e call => e.inFrame call.callee.label) ⟨kind, none⟩

theorem raised_concat (kind : Error.Kind) (calls : List Call) (call : Call) :
    raised kind (calls ++ [call]) = (raised kind calls).inFrame call.callee.label :=
  List.foldl_concat ..

theorem raised_inRule (kind : Error.Kind) (calls : List Call) (rule event : String)
    (id : EntityId) : (raised kind calls).inRule rule event id =
      ⟨kind, some ⟨some rule, some event, some id, calls.map (·.callee.label)⟩⟩ := by
  have h : (raised kind calls).kind = kind ∧ (raised kind calls).context.getD {} =
      { stack := calls.map (·.callee.label) } := by
    induction calls using List.reverseRecOn with
    | nil => exact ⟨rfl, rfl⟩
    | append_singleton calls call ih =>
        rw [raised_concat, Error.inFrame, ih.2, List.map_append]
        exact ⟨ih.1, rfl⟩
  rw [Error.inRule, h.1, h.2]
  rfl

theorem eq_nil_of_raised_eq {kind kind' : Error.Kind} {calls : List Call}
    (h : raised kind calls = ⟨kind', none⟩) : calls = [] := by
  rcases calls.eq_nil_or_concat with rfl | ⟨calls, call, rfl⟩
  · rfl
  · rw [List.concat_eq_append, raised_concat] at h
    cases h

section Raising

variable {c : Scope} {calls : List Call} {depth : Nat} {α β : Type} {x : Exec α} {s : State}

theorem callBound_of_ok {id : EntityId} {name : String} {f : BoundFunction}
    (hf : s.world.resolveBound id name = .ok f) (x : Exec (List Value)) :
    callBound c depth id name x s = (x >>= fun values =>
      invokeAt c depth (name ++ "@" ++ id.text) f.params f.body values) s :=
  bind_of_ok ((onWorld_resolveBound ..).trans (by rw [hf])) _

theorem invokeAt_of_error (callee : Callee) {params : List Param} {body : Expr}
    {args : List Value} (harity : params.length = args.length)
    (hroom : s.frames.length < c.limits.callDepth) {kind : Error.Kind} {inner : List Call}
    {t : State} (h : eval c (invokeAt c depth) body
      { s with frames := frameOf params args :: s.frames } = .error (raised kind inner) t) :
    invokeAt c (depth + 1) callee.label params body args s =
      .error (raised kind (inner ++ [⟨callee, frameOf params args⟩]))
        { t with frames := t.frames.tail } := by
  rw [invokeAt_call harity hroom, h, raised_concat]
  rfl

/-- What is raised comes out, with the names of the calls that it came out of. -/
theorem Raises.result {calls' : List Call} {kind : Error.Kind} {u : State}
    (h : Raises c calls x s calls' kind u) :
    ∃ inner t, calls' = inner ++ calls ∧ x s = .error (raised kind inner) t := by
  induction h with
  | step _ h => exact ⟨[], _, rfl, h⟩
  | misfit harity => exact ⟨[], _, rfl, invokeAt_misfit harity _⟩
  | full harity hfull => exact ⟨[], _, rfl, invokeAt_full harity hfull _⟩
  | @function calls _ _ name f args _ _ _ _ harity hroom _ ih =>
      obtain ⟨inner, t, rfl, ht⟩ := ih
      have hout := invokeAt_of_error (.function name) harity hroom ht
      refine ⟨_, _, ?_, hout⟩
      rw [List.append_assoc, List.singleton_append]
  | @bound calls _ _ id name f _ args _ _ _ _ hf hargs harity hroom _ ih =>
      obtain ⟨inner, t, rfl, ht⟩ := ih
      have hout := invokeAt_of_error (.bound id name) harity hroom ht
      refine ⟨_, _, ?_, (callBound_of_ok hf _).trans ((bind_of_ok hargs _).trans hout)⟩
      rw [List.append_assoc, List.singleton_append]
  | first _ ih =>
      obtain ⟨inner, t, rfl, ht⟩ := ih
      exact ⟨inner, t, rfl, bind_of_error ht _⟩
  | later hx _ ih =>
      obtain ⟨inner, t, rfl, ht⟩ := ih
      exact ⟨inner, t, rfl, (bind_of_ok hx _).trans ht⟩
  | @keepingLocal _ _ name _ s _ _ _ ih =>
      obtain ⟨inner, t, rfl, ht⟩ := ih
      refine ⟨inner, restoreLocal name (Table.find? s.locals name) t, rfl, ?_⟩
      rw [keepingLocal_eq, ht]
      rfl

theorem invokeAt_rejected {params : List Param} {args : List Value}
    (h : params.length ≠ args.length ∨ c.limits.callDepth ≤ s.frames.length) (depth : Nat)
    (label : String) (body : Expr) :
    ∃ kind, invokeAt c depth label params body args s = .error ⟨kind, none⟩ s := by
  by_cases harity : params.length = args.length
  · exact ⟨_, invokeAt_full harity (h.resolve_left (not_not_intro harity)) depth⟩
  · exact ⟨_, invokeAt_misfit harity depth⟩

theorem Raises.of_rejected {params : List Param} {args : List Value} {label : String} {body : Expr}
    {calls' : List Call} {kind : Error.Kind} {u : State}
    (hrejected : params.length ≠ args.length ∨ c.limits.callDepth ≤ s.frames.length)
    (h : Raises c calls (invokeAt c depth label params body args) s calls' kind u) :
    calls' = calls := by
  obtain ⟨inner, t, rfl, ht⟩ := h.result
  obtain ⟨kind', hnone⟩ := invokeAt_rejected hrejected depth label body
  obtain ⟨hraised, -⟩ := EStateM.Result.error.inj (ht.symm.trans hnone)
  rw [eq_nil_of_raised_eq hraised, List.nil_append]

theorem Traced.imp {y : Exec β} {t : State} {calls₀ : List Call} (h : Traced c calls x s)
    (hraises : ∀ {calls' kind u}, Raises c calls x s calls' kind u →
      Raises c calls₀ y t calls' kind u) : Traced c calls₀ y t := by
  obtain ⟨calls', kind, u, h, hu⟩ := h
  exact ⟨calls', kind, u, hraises h, hu⟩

def KeepsCalls (calls : List Call) (x : Exec α) : Prop :=
  ∀ s : State, s.frames = calls.map (·.frame) → (final x s).frames = s.frames

theorem KeepsCalls.frames_of_ok {a : α} {t : State} (hx : KeepsCalls calls x)
    (h : s.frames = calls.map (·.frame)) (hs : x s = .ok a t) :
    t.frames = calls.map (·.frame) := by
  have hframes := hx s h
  rw [final_of_ok hs] at hframes
  exact hframes.trans h

theorem KeepsCalls.bind {f : α → Exec β} (hx : KeepsCalls calls x)
    (hf : ∀ a s t, x s = .ok a t → KeepsCalls calls (f a)) : KeepsCalls calls (x >>= f) := by
  intro s h
  rw [final_bind]
  cases hs : x s with
  | ok a t =>
      have hframes := hx.frames_of_ok h hs
      exact (hf a s t hs t hframes).trans (hframes.trans h.symm)
  | error e t =>
      have hframes := hx s h
      rw [final_of_error hs] at hframes
      exact hframes

structure Traceable (c : Scope) (calls : List Call) {α : Type} (x : Exec α) : Prop where
  frames : KeepsCalls calls x
  traced {s t : State} {e : Error} (h : s.frames = calls.map (·.frame)) (he : x s = .error e t) :
    Traced c calls x s

theorem Elementary.traceable (hx : Elementary x)
    (hplace : ∀ s e t, x s = .error e t → e.context = none)
    (hdeep : calls.length ≤ c.limits.callDepth) : Traceable c calls x where
  frames s _ := hx.frames s
  traced {s t e} h he := by
    have hcontext := hplace s e t he
    obtain ⟨kind, context⟩ := e
    obtain rfl : context = none := hcontext
    exact ⟨calls, kind, s, .step hx he, h, hdeep⟩

theorem Traceable.bind {f : α → Exec β} (hx : Traceable c calls x)
    (hf : ∀ a s t, x s = .ok a t → Traceable c calls (f a)) : Traceable c calls (x >>= f) where
  frames := hx.frames.bind fun a s t hs => (hf a s t hs).frames
  traced {s t e} h he := by
    cases hs : x s with
    | ok a v =>
        rw [bind_of_ok hs] at he
        exact ((hf a s v hs).traced (hx.frames.frames_of_ok h hs) he).imp (.later hs)
    | error e' v => exact (hx.traced h hs).imp .first

theorem Traceable.keepingLocal {x : Exec Unit} (hx : Traceable c calls x) (name : String) :
    Traceable c calls (keepingLocal name x) where
  frames s h := by
    rw [final_keepingLocal]
    exact hx.frames s h
  traced {s t e} h he := by
    rw [keepingLocal_eq] at he
    cases hs : x s with
    | ok a v =>
        rw [hs] at he
        cases he
    | error e' v => exact (hx.traced h hs).imp .keepingLocal

section Steps

variable (hdeep : calls.length ≤ c.limits.callDepth)

include hdeep

theorem traceable_pure (a : α) : Traceable c calls (pure a : Exec α) :=
  (Elementary.pure a).traceable (by rintro s e t ⟨⟩) hdeep

theorem traceable_fail (kind : Error.Kind) : Traceable c calls (fail kind : Exec α) :=
  (Elementary.fail kind).traceable (by rintro s e t ⟨⟩; rfl) hdeep

theorem traceable_get : Traceable c calls (get : Exec State) :=
  Elementary.get.traceable (by rintro s e t ⟨⟩) hdeep

theorem traceable_record (e : TraceEvent) : Traceable c calls (record e) :=
  (Elementary.record e).traceable (by rintro s e t ⟨⟩) hdeep

theorem traceable_draw (f : Random → Except Error.Kind (Value × Random)) :
    Traceable c calls (draw f) := by
  refine (Elementary.draw f).traceable (fun s e t h => ?_) hdeep
  cases hs : f s.random with
  | ok p => cases (draw_of_ok hs).symm.trans h
  | error kind =>
      cases (draw_of_error hs).symm.trans h
      rfl

theorem traceable_onWorld {f : World → Except Error (α × World)} (hf : ∀ w, Unplaced (f w)) :
    Traceable c calls (onWorld f) := by
  refine (Elementary.onWorld f).traceable (fun s e t h => ?_) hdeep
  cases hs : f s.world with
  | ok p => cases (onWorld_of_ok hs).symm.trans h
  | error e' =>
      cases (onWorld_of_error hs).symm.trans h
      exact hf s.world _ hs

theorem traceable_addEvent (type : String) (delay : Binary64) (interval : Option Binary64)
    (payload : Payload) : Traceable c calls (addEvent type delay interval payload) := by
  refine (Elementary.addEvent type delay interval payload).traceable (fun s e t h => ?_) hdeep
  unfold addEvent at h
  rw [get_bind] at h
  cases interval with
  | none => cases h
  | some interval =>
      cases hs : s.scheduler.scheduleRecurringAfter type delay interval payload with
      | ok p =>
          simp only [hs] at h
          cases h
      | error e' =>
          simp only [hs] at h
          cases h
          exact s.scheduler.unplaced_scheduleRecurringAfter type delay interval payload _ hs

end Steps

def TraceableWithin (c : Scope) (depth : Nat) {α : Type} (x : Exec α) : Prop :=
  ∀ calls : List Call, calls.length ≤ c.limits.callDepth →
    c.limits.callDepth ≤ calls.length + depth → Traceable c calls x

def BodiesTraceable (c : Scope) (depth : Nat) : Prop :=
  ∀ d, depth = d + 1 → ∀ body, TraceableWithin c d (eval c (invokeAt c d) body)

/-- A call that fails is rejected, or its body fails. -/
theorem BodiesTraceable.cases_of_error (hbodies : BodiesTraceable c depth)
    (hd : c.limits.callDepth ≤ calls.length + depth) (h : s.frames = calls.map (·.frame))
    (callee : Callee) {params : List Param} {body : Expr} {args : List Value} {e : Error}
    {t : State}
    (he : invokeAt c depth callee.label params body args s = .error e t) :
    (∃ kind, Raises c calls (invokeAt c depth callee.label params body args) s calls kind s) ∨
      ∃ d, depth = d + 1 ∧ params.length = args.length ∧ s.frames.length < c.limits.callDepth ∧
        Traced c (⟨callee, frameOf params args⟩ :: calls) (eval c (invokeAt c d) body)
          { s with frames := frameOf params args :: s.frames } := by
  have hlength : s.frames.length = calls.length := by rw [h, List.length_map]
  by_cases harity : params.length = args.length
  · by_cases hroom : s.frames.length < c.limits.callDepth
    · obtain ⟨d, rfl⟩ : ∃ d, depth = d + 1 := Nat.exists_eq_succ_of_ne_zero (by omega)
      have hbody := hbodies d rfl body (⟨callee, frameOf params args⟩ :: calls)
        (by simp only [List.length_cons]; omega) (by simp only [List.length_cons]; omega)
      rw [invokeAt_call harity hroom] at he
      cases hs : eval c (invokeAt c d) body
          { s with frames := frameOf params args :: s.frames } with
      | ok v t' =>
          rw [hs] at he
          cases he
      | error e' t' =>
          have htraced := hbody.traced (congrArg (frameOf params args :: ·) h) hs
          exact .inr ⟨d, rfl, harity, hroom, htraced⟩
    · exact .inl ⟨_, .full harity (Nat.le_of_not_lt hroom)⟩
  · exact .inl ⟨_, .misfit harity⟩

theorem BodiesTraceable.function (hbodies : BodiesTraceable c depth) {name : String}
    {f : FunctionDecl} (hf : c.rules.function? name = some f) (args : List Value) :
    TraceableWithin c depth (invokeAt c depth name f.params f.body args) := by
  refine fun calls hdeep hd => ⟨fun s _ => (keepsFrame_invokeAt c depth _ _ _ _ s).frames, ?_⟩
  intro s t e h he
  rcases hbodies.cases_of_error hd h (.function name) he with
    ⟨kind, hraises⟩ | ⟨d, rfl, harity, hroom, htraced⟩
  · exact ⟨calls, kind, s, hraises, h, hdeep⟩
  · exact htraced.imp (.function hf harity hroom)

theorem BodiesTraceable.bound (hbodies : BodiesTraceable c depth) {x : Exec (List Value)}
    (hx : TraceableWithin c depth x) (id : EntityId) (name : String) :
    TraceableWithin c depth (callBound c depth id name x) := by
  intro calls hdeep hd
  have hlook : Traceable c calls (onWorld fun w => (w.resolveBound id name).map (·, w)) :=
    traceable_onWorld hdeep fun w => (w.unplaced_resolveBound id name).map _
  have hargs := hx calls hdeep hd
  refine ⟨?_, fun {s t e} h he => ?_⟩
  · exact hlook.frames.bind fun f _ _ _ => hargs.frames.bind fun _ _ _ _ s _ =>
      (keepsFrame_invokeAt c depth _ _ _ _ s).frames
  · cases hf : s.world.resolveBound id name with
    | error e' =>
        have hfail := (onWorld_resolveBound id name s).trans (by rw [hf])
        exact (hlook.traced h hfail).imp .first
    | ok f =>
        have hfound := (onWorld_resolveBound id name s).trans (by rw [hf])
        rw [callBound_of_ok hf] at he
        cases hs : x s with
        | error e' t' => exact (hargs.traced h hs).imp fun h => .later hfound (.first h)
        | ok args t' =>
            have ht := hargs.frames.frames_of_ok h hs
            rw [bind_of_ok hs] at he
            rcases hbodies.cases_of_error hd ht (.bound id name) he with
              ⟨kind, hraises⟩ | ⟨d, rfl, harity, hroom, htraced⟩
            · exact ⟨calls, kind, t', .later hfound (.later hs hraises), ht, hdeep⟩
            · exact htraced.imp (.bound hf hs harity hroom)

theorem BodiesTraceable.compositional (hbodies : BodiesTraceable c depth) :
    Compositional c (fun _ => True) fun p => TraceableWithin c depth (p (invokeAt c depth)) where
  parts _ _ := trivial
  pure a _ hdeep _ := traceable_pure hdeep a
  fail kind _ hdeep _ := traceable_fail hdeep kind
  bind hp hf calls hdeep hd := (hp calls hdeep hd).bind fun a _ _ _ => hf a calls hdeep hd
  read _ _ hdeep _ := (traceable_get hdeep).bind fun _ _ _ _ => traceable_pure hdeep _
  builtin _ _ _ _ _ hdeep _ := traceable_draw hdeep _
  call _ _ _ hf values := hbodies.function hf values
  clone _ source _ hdeep _ := traceable_onWorld hdeep fun w => w.unplaced_clone source
  spawned _ _ _ hdeep _ := traceable_record hdeep _
  setField _ id component field v _ hdeep _ :=
    traceable_onWorld hdeep fun w => (w.unplaced_setField id component field v).map _
  boundCall _ id _ hp := hbodies.bound hp id _

/-- The induction is on the calls that are left. -/
theorem bodiesTraceable (c : Scope) (depth : Nat) : BodiesTraceable c depth := by
  induction depth with
  | zero =>
      intro d hd
      cases hd
  | succ depth ih =>
      intro d hd body
      obtain rfl : depth = d := Nat.succ.inj hd
      exact ih.compositional.eval body trivial

end Raising

theorem traceable_evaluates (c : Scope) : Evaluates c fun x => Traceable c [] x := by
  have h : Evaluates c fun x => TraceableWithin c c.limits.callDepth x :=
    (bodiesTraceable c _).compositional.evaluates
  have hroot {α : Type} {x : Exec α} (hx : TraceableWithin c c.limits.callDepth x) :
      Traceable c [] x := hx [] (Nat.zero_le _) (Nat.le_add_left _ _)
  exact ⟨fun e => hroot (h.expr e), fun e => hroot (h.ref e), fun fields => hroot (h.fields fields)⟩

theorem traceable_composed (c : Scope) : Composed (fun _ => True) fun x => Traceable c [] x where
  pure := traceable_pure (Nat.zero_le _)
  fail := traceable_fail (Nat.zero_le _)
  bind hx hf := hx.bind fun a _ _ _ => hf a
  reading _ hf := (traceable_get (Nat.zero_le _)).bind fun s _ _ _ => hf s
  record e _ := traceable_record (Nat.zero_le _) e
  draw := traceable_draw (Nat.zero_le _)
  setField id component field v :=
    traceable_onWorld (Nat.zero_le _) fun w => (w.unplaced_setField id component field v).map _
  clone source := traceable_onWorld (Nat.zero_le _) fun w => w.unplaced_clone source
  resolveBound id name :=
    traceable_onWorld (Nat.zero_le _) fun w => (w.unplaced_resolveBound id name).map _
  setLocal name v := (Elementary.setLocal name v).traceable (by rintro s e t ⟨⟩) (Nat.zero_le _)
  create := traceable_onWorld (Nat.zero_le _) fun w => unplaced_ok w.create
  delete id := traceable_onWorld (Nat.zero_le _) fun w => (w.unplaced_delete id).map _
  addComponent id component init :=
    traceable_onWorld (Nat.zero_le _) fun w => (w.unplaced_addComponent id component init).map _
  removeComponent id component :=
    traceable_onWorld (Nat.zero_le _) fun w => w.unplaced_removeComponent id component
  addEvent _ := traceable_addEvent (Nat.zero_le _) _
  keepingLocal name _ hb := hb.keepingLocal name
  begin _ := ⟨fun _ h => h.symm, by rintro s t e h ⟨⟩⟩

theorem traceable_goOn (c : Scope) (rule : Rule) (id : EntityId) (holds : Bool) :
    Traceable c [] (goOn c rule id holds) := by
  have hP := traceable_composed c
  cases holds with
  | false => exact hP.pure false
  | true =>
      have htriggered : Traceable c [] (record (.ruleTriggered c.rule id)) :=
        traceable_record (Nat.zero_le _) _
      have hactions := runActions_closed hP (traceable_evaluates c) rule.decl.actions
        fun _ _ => trivial
      exact htriggered.bind fun _ _ _ _ => hactions.bind fun _ _ _ _ => hP.pure true

theorem runRule_traced {c : Scope} {rule : Rule} {id : EntityId} {s t : State} {e : Error}
    (h : runRule c rule id s = .error e t) : Traced c [] (runRule c rule id) s := by
  have hcondition := conditionOf_closed (traceable_composed c) (traceable_evaluates c) rule
  have hrest := hcondition.bind fun holds _ _ _ => traceable_goOn c rule id holds
  rw [runRule_ready] at h
  rw [runRule_eq]
  exact (hrest.traced (s := ready c rule id s) rfl h).imp fun h => .later rfl h

structure Located (c : Scope) (t : Trial) (f : RuleFailure) : Prop where
  rule : f.rule = t.rule.name
  entity : f.entity = t.entity
  traced : Traced t.scope [] (runRule t.scope t.rule t.entity) t.start
  error {calls : List Call} {kind : Error.Kind} {u : State}
    (h : Raises t.scope [] (runRule t.scope t.rule t.entity) t.start calls kind u) :
    f.error = ⟨kind, some ⟨some t.rule.name, some c.event.type, some t.entity,
      calls.map (·.callee.label)⟩⟩

theorem scope_of_mem_trials {c : Scope} {stage : Stage} {t : Trial} (h : t ∈ trials c stage) :
    t.scope = c.under t.rule := by
  obtain ⟨p, -, ht⟩ := List.mem_flatMap.mp h
  obtain ⟨turn, -, rfl⟩ := List.mem_map.mp ht
  rfl

theorem Trial.located {c : Scope} {t : Trial} (hscope : t.scope = c.under t.rule)
    {f : RuleFailure} (hf : t.failure? = some f) : Located c t f := by
  rw [failure?] at hf
  cases hrun : runRule t.scope t.rule t.entity t.start with
  | ok holds u =>
      rw [hrun] at hf
      cases hf
  | error e u =>
      rw [hrun] at hf
      cases hf
      refine ⟨by rw [hscope]; rfl, rfl, runRule_traced hrun, fun {calls kind v} h => ?_⟩
      obtain ⟨inner, w, rfl, hw⟩ := h.result
      rw [hrun] at hw
      cases hw
      rw [raised_inRule, hscope, List.append_nil]
      rfl

/-- The failures that an event reports are those of its turns, in their order, and each names the
rule and the entity of its turn. Its error names them, too, and the type of the event, and its stack
names the calls in whose bodies it was raised, the innermost first. The frames were those of the
same calls then, and no more than the limit allows. A call that is rejected fails outside its own
body. -/
theorem failures_located (c : Scope) (stage : Stage) :
    (runEvent c.rules c.limits c.event stage).2.failures =
        (trials c stage).filterMap Trial.failure? ∧
      (∀ t ∈ trials c stage, ∀ f, t.failure? = some f → Located c t f) ∧
      ∀ (depth : Nat) (label : String) (params : List Param) (body : Expr) (args : List Value)
        (s : State), (params.length ≠ args.length ∨ c.limits.callDepth ≤ s.frames.length) →
          (∃ kind, invokeAt c depth label params body args s = .error ⟨kind, none⟩ s) ∧
          ∀ calls calls' kind u,
            Raises c calls (invokeAt c depth label params body args) s calls' kind u →
              calls' = calls := by
  refine ⟨(runEvent_recounts c stage).2.2.2,
    fun t ht f hf => Trial.located (scope_of_mem_trials ht) hf, ?_⟩
  intro depth label params body args s hrejected
  exact ⟨invokeAt_rejected hrejected depth label body, fun _ _ _ _ h => h.of_rejected hrejected⟩

def lamps : World where
  entities := ⟨[.ofNat 1], 2⟩
  bound := [(.ofNat 1, [("trim", { params := [⟨"wick", none⟩]
                                   body := .call "snuff" [.param "wick"] })])]

def dusk : Scope where
  rules :=
    { functions := [("snuff",
        { name := "snuff", params := [⟨"wick", none⟩, ⟨"oil", none⟩], body := .param "oil" })]
      byEvent := [("dusk", [⟨0, 0,
        { trigger := ⟨"event", some "dusk", []⟩
          actions := [.bind "lit" (.boundCall (.named "entity") "trim" [.literal (.int 1)])] }⟩])] }
  limits := {}
  event := ⟨0, "dusk", Binary64.zero, {}, 0, none⟩

theorem trim_located : ∃ t f, trials dusk { world := lamps } = [t] ∧ t.failure? = some f ∧
    f.error.context = some ⟨some "rule#0", some "dusk", some (.ofNat 1), ["trim@Entity(1)"]⟩ ∧
      Located dusk t f ∧
        ∃ kind, invokeAt dusk 1 "snuff" [⟨"wick", none⟩, ⟨"oil", none⟩] (.param "oil") [.int 1] {} =
          .error ⟨kind, none⟩ {} := by
  obtain ⟨-, hlocated, hrejected⟩ := failures_located dusk { world := lamps }
  exact ⟨_, _, rfl, rfl, rfl, hlocated _ (List.mem_singleton_self _) _ rfl,
    (hrejected 1 "snuff" _ _ [.int 1] {} (.inl (by decide))).1⟩

end Execution

end RuleSim
