import RuleSim.Proofs.Execution.Accounts
import RuleSim.Proofs.Execution.Alike

namespace RuleSim.Execution

variable {α β : Type} {c : Scope} {s t : State}

def withFrames (frames : List (Fields Value)) :
    EStateM.Result Error State α → EStateM.Result Error State α
  | .ok a s => .ok a { s with frames }
  | .error e s => .error e { s with frames }

/-- With other frames of the same number under the same innermost one the execution takes the same
way, and in either case it leaves the frames as they are. -/
def Secluded (x : Exec α) : Prop :=
  ∀ s frames, frames.head? = s.frames.head? → frames.length = s.frames.length →
    x { s with frames } = withFrames frames (x s)

theorem Secluded.frames {x : Exec α} (hx : Secluded x) (s : State) :
    (stateOf (x s)).frames = s.frames := by
  have h := congrArg (fun r => (stateOf r).frames) (hx s s.frames rfl rfl)
  refine Eq.trans h ?_
  cases x s <;> rfl

theorem Secluded.bind {x : Exec α} {f : α → Exec β} (hx : Secluded x) (hf : ∀ a, Secluded (f a)) :
    Secluded (x >>= f) := by
  intro s frames hhead hlength
  have hframes := hx.frames s
  have hs := hx s frames hhead hlength
  cases h : x s with
  | ok a u =>
      rw [h] at hs hframes
      rw [bind_of_ok hs, bind_of_ok h]
      apply hf a u frames
      · exact hhead.trans (congrArg List.head? hframes.symm)
      · exact hlength.trans (congrArg List.length hframes.symm)
  | error e u =>
      rw [h] at hs
      rw [bind_of_error hs, bind_of_error h]
      rfl

theorem secluded_onWorld (f : World → Except Error (α × World)) : Secluded (onWorld f) := by
  intro s frames _ _
  unfold onWorld
  dsimp only
  cases f s.world <;> rfl

theorem secluded_draw (f : Random → Except Error.Kind (Value × Random)) : Secluded (draw f) := by
  intro s frames _ _
  cases h : f s.random with
  | ok p =>
      rw [draw_of_ok h, draw_of_ok (s := { s with frames }) h]
      rfl
  | error kind =>
      rw [draw_of_error h, draw_of_error (s := { s with frames }) h]
      rfl

/-- The execution does not even see the innermost frame. -/
def Blindfold (x : Exec α) : Prop :=
  ∀ s frames, frames.length = s.frames.length → x { s with frames } = withFrames frames (x s)

theorem Blindfold.secluded {x : Exec α} (hx : Blindfold x) : Secluded x :=
  fun s frames _ hlength => hx s frames hlength

/-- The frame of the call covers those of its callers. -/
theorem blindfold_inFrame (name : String) (frame : Fields Value) {body : Exec Value}
    (hb : Secluded body) : Blindfold (inFrame name frame body) := by
  intro s frames hlength
  have hbody := hb { s with frames := frame :: s.frames } (frame :: frames) rfl
    (congrArg Nat.succ hlength)
  rw [inFrame_eq, inFrame_eq]
  refine (congrArg (leave name) hbody).trans ?_
  cases body { s with frames := frame :: s.frames } <;> rfl

theorem blindfold_enter (c : Scope) (name : String) (params : List Param) (args : List Value)
    {body : Exec Value} (hb : Secluded body) : Blindfold (enter c name params args body) := by
  intro s frames hlength
  rw [enter_eq, enter_eq]
  dsimp only
  rw [hlength]
  split
  · rfl
  · split
    · rfl
    · exact blindfold_inFrame name _ hb s frames hlength

theorem secluded_compositional (c : Scope) {invoke : Invoke} (hi : invoke.Satisfies Blindfold) :
    Compositional c (fun _ => True) fun p => Secluded (p invoke) where
  parts _ _ := trivial
  pure _ := fun _ _ _ _ => rfl
  fail _ := fun _ _ _ _ => rfl
  bind := Secluded.bind
  read {_} f heq := by
    intro s frames hhead _
    have hnear : State.Near 0 s { s with frames } := ⟨.refl s.world, rfl, hhead⟩
    exact congrArg (fun a => EStateM.Result.ok a { s with frames }) (heq 0 s _ hnear)
  builtin _ _ _ _ := secluded_draw _
  call _ _ _ _ _ := (hi _ _ _ _).secluded
  clone _ _ := secluded_onWorld _
  spawned _ _ := fun _ _ _ _ => rfl
  setField _ _ _ _ _ := secluded_onWorld _
  boundCall _ _ _ hp :=
    (secluded_onWorld _).bind fun _ => hp.bind fun _ => (hi _ _ _ _).secluded

/-- The induction is on the calls that may still be nested. -/
theorem blindfold_invokeAt (c : Scope) (depth : Nat) : (invokeAt c depth).Satisfies Blindfold := by
  induction depth with
  | zero =>
      intro name params body args
      exact blindfold_enter c name params args fun _ _ _ _ => rfl
  | succ depth ih =>
      intro name params body args
      exact blindfold_enter c name params args ((secluded_compositional c ih).eval body trivial)

theorem secluded_evaluate (c : Scope) (e : Expr) : Secluded (evaluate c e) :=
  (secluded_compositional c (blindfold_invokeAt c _)).eval e trivial

def SameStage (s t : State) : Prop := t.toStage = s.toStage

theorem ready_congr (h : SameStage s t) (c : Scope) (rule : Rule) (id : EntityId) :
    ready c rule id t = ready c rule id s :=
  congrArg (fun stage => (⟨stage, initialLocals c rule id, []⟩ : State)) h

theorem runRule_congr (h : SameStage s t) (c : Scope) (rule : Rule) (id : EntityId) :
    runRule c rule id t = runRule c rule id s := by
  rw [runRule_ready, runRule_ready, ready_congr h]

theorem attempt_congr (h : SameStage s t) (c : Scope) (rule : Rule) (id : EntityId)
    (r : EventReport) : attempt c rule id t r = attempt c rule id s r := by
  rw [attempt, attempt, runRule_congr h]

theorem SameStage.noted (h : SameStage s t) (e : TraceEvent) :
    SameStage (noted e s) (noted e t) := by
  have h : t.toStage = s.toStage := h
  exact congrArg (fun stage : Stage => ({ stage with trace := stage.trace.record e } : Stage)) h

theorem runOn_sameStage (h : SameStage s t) (c : Scope) (rule : Rule) (ids : List EntityId)
    (r : EventReport) : Told SameStage (runOn c rule ids s r) (runOn c rule ids t r) := by
  induction ids generalizing s t r with
  | nil => exact ⟨h, rfl⟩
  | cons id ids ih =>
      have hworld : t.world = s.world := congrArg Stage.world h
      have hturn := attempt_congr (h.noted (.ruleMatched c.rule id)) c rule id
        { r with matched := r.matched + 1 }
      cases hlive : s.world.hasEntity id with
      | true =>
          -- The turn starts anew, so that from here on the two runs are one.
          have hs : runOn c rule (id :: ids) s r = runOn c rule ids _ _ := if_pos hlive
          have ht : runOn c rule (id :: ids) t r = runOn c rule ids _ _ := if_pos (hworld ▸ hlive)
          have heq : runOn c rule (id :: ids) t r = runOn c rule (id :: ids) s r :=
            ht.trans ((congrArg (fun p => runOn c rule ids p.1 p.2) hturn).trans hs.symm)
          rw [heq]
          exact ⟨rfl, rfl⟩
      | false =>
          rw [runOn_of_dead hlive, runOn_of_dead (hworld ▸ hlive)]
          exact ih h r

theorem runRules_sameStage (h : SameStage s t) (c : Scope) (rules : List Rule) (r : EventReport) :
    Told SameStage (runRules c rules s r) (runRules c rules t r) := by
  induction rules generalizing c s t r with
  | nil => exact ⟨h, rfl⟩
  | cons rule rules ih =>
      have hworld : t.world = s.world := congrArg Stage.world h
      obtain ⟨hstage, hreport⟩ := runOn_sameStage h (c.under rule) rule
        (candidates (c.under rule) s.world rule) r
      rw [runRules_cons, runRules_cons, hworld, hreport]
      apply ih
      rw [afterPass, afterPass, hworld, runOn_fst _ _ _ _ {} r, runOn_fst _ _ _ _ {} r]
      exact hstage

/-- An expression comes to the same value or error and leaves the same stage and locals behind
whatever parameters the calls further out have, and a call does so whatever parameters its caller
has. What a rule does to an entity depends on no locals and frames that are left over, and so does
what all rules do with an event. -/
theorem parameters_scoped (c : Scope) :
    (∀ (e : Expr) (s : State) (frames : List (Fields Value)), frames.head? = s.frames.head? →
        frames.length = s.frames.length →
        evaluate c e { s with frames } = withFrames frames (evaluate c e s)) ∧
      (∀ (depth : Nat) (name : String) (params : List Param) (body : Expr) (args : List Value)
          (s : State) (frames : List (Fields Value)), frames.length = s.frames.length →
        invokeAt c depth name params body args { s with frames } =
          withFrames frames (invokeAt c depth name params body args s)) ∧
      (∀ (rule : Rule) (id : EntityId) (s t : State), t.toStage = s.toStage →
        runRule c rule id t = runRule c rule id s) ∧
      ∀ (rules : List Rule) (s t : State) (r : EventReport), t.toStage = s.toStage →
        (runRules c rules t r).1.toStage = (runRules c rules s r).1.toStage ∧
          (runRules c rules t r).2 = (runRules c rules s r).2 := by
  refine ⟨fun e => secluded_evaluate c e, fun depth => blindfold_invokeAt c depth, ?_, ?_⟩
  · intro rule id s t h
    exact runRule_congr h c rule id
  · intro rules s t r h
    exact runRules_sameStage h c rules r

def inn : Scope where
  rules :=
    { functions := [("confide", { name := "confide", params := [{ name := "password" }]
                                  body := .call "overhear" [] }),
        ("overhear", { name := "overhear", params := [], body := .param "password" })] }
  limits := {}
  event := ⟨0, "tick", Binary64.zero, {}, 0, none⟩

def eavesdrop : Rule :=
  ⟨0, 0, { trigger := ⟨"event", some "tick", []⟩
           condition := some (.binary .eq (.var "password") (.literal (.int 7)))
           actions := [] }⟩

def told : State := { locals := [("password", .int 7)], frames := [[("password", .int 7)]] }

theorem password_not_overheard :
    evaluate inn (.call "confide" [.literal (.int 7)]) { frames := [] :: told.frames } =
        .ok .null { frames := [] :: told.frames } ∧
      invokeAt inn 1 "overhear" [] (.param "password") [] { frames := told.frames } =
        .ok .null { frames := told.frames } ∧
      runRule inn eavesdrop (.ofNat 1) told =
        .ok false { locals := [("entity", .entity (.ofNat 1))] } ∧
      (runRules inn [eavesdrop] told {}).2 = (runRules inn [eavesdrop] {} {}).2 := by
  obtain ⟨heval, hcall, hrule, hrules⟩ := parameters_scoped inn
  refine ⟨?_, ?_, ?_, ?_⟩
  · exact heval (.call "confide" [.literal (.int 7)]) { frames := [[], []] } ([] :: told.frames)
      rfl rfl
  · exact hcall 1 "overhear" [] (.param "password") [] { frames := [[]] } told.frames rfl
  · exact hrule eavesdrop (.ofNat 1) {} told rfl
  · exact (hrules [eavesdrop] {} told {} rfl).2

end RuleSim.Execution
