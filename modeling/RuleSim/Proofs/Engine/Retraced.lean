import RuleSim.Proofs.Engine.Alike

namespace RuleSim

namespace Execution

variable {α : Type}

def State.Retraced (s t : State) : Prop := ∃ trace, t = { s with trace }

theorem retraced_onWorld (f : World → Except Error (α × World)) :
    Respects State.Retraced (onWorld f) := by
  rintro s _ ⟨trace, rfl⟩
  unfold onWorld
  cases f s.world with
  | ok p => exact .ok _ ⟨trace, rfl⟩
  | error e => exact .error e ⟨trace, rfl⟩

theorem retraced_draw (f : Random → Except Error.Kind (Value × Random)) :
    Respects State.Retraced (do
      let s ← get
      let (v, random) ← lift (f s.random)
      set { s with random }
      return v) := by
  rintro s _ ⟨trace, rfl⟩
  rw [get_bind, get_bind]
  cases f s.random with
  | ok p => exact .ok p.1 ⟨trace, rfl⟩
  | error kind => exact .error _ ⟨trace, rfl⟩

theorem retraced_addEvent (type : String) (delay : Binary64) (interval : Option Binary64)
    (payload : Payload) : Respects State.Retraced (addEvent type delay interval payload) := by
  rintro s _ ⟨trace, rfl⟩
  rw [addEvent, get_bind, get_bind]
  cases interval with
  | none => exact .ok _ ⟨trace, rfl⟩
  | some interval =>
      dsimp only
      cases s.scheduler.scheduleRecurringAfter type delay interval payload with
      | ok p => exact .ok _ ⟨trace, rfl⟩
      | error e => exact .error e ⟨trace, rfl⟩

theorem retraced_inFrame (name : String) (frame : Fields Value) {body : Exec Value}
    (hb : Respects State.Retraced body) : Respects State.Retraced (inFrame name frame body) := by
  rintro s _ ⟨trace, rfl⟩
  have hbody := hb { s with frames := frame :: s.frames }
    { s with frames := frame :: s.frames, trace } ⟨trace, rfl⟩
  unfold inFrame
  generalize body { s with frames := frame :: s.frames } = x,
    body { s with frames := frame :: s.frames, trace } = y at hbody
  cases hbody with
  | ok v h =>
      obtain ⟨trace, rfl⟩ := h
      exact .ok v ⟨trace, rfl⟩
  | error e h =>
      obtain ⟨trace, rfl⟩ := h
      exact .error _ ⟨trace, rfl⟩

theorem retraced_keepingLocal (name : String) {body : Exec Unit}
    (hb : Respects State.Retraced body) : Respects State.Retraced (keepingLocal name body) := by
  rintro s _ ⟨trace, rfl⟩
  have hbody := hb s { s with trace } ⟨trace, rfl⟩
  unfold keepingLocal
  generalize body s = x, body { s with trace } = y at hbody
  cases hbody with
  | ok _ h =>
      obtain ⟨trace, rfl⟩ := h
      exact .ok () ⟨trace, rfl⟩
  | error e h =>
      obtain ⟨trace, rfl⟩ := h
      exact .error e ⟨trace, rfl⟩

theorem State.Retraced.alike {s t : State} (h : s.Retraced t) : s.Alike 0 t := by
  obtain ⟨trace, rfl⟩ := h
  exact ⟨⟨.refl _, rfl, rfl⟩, rfl, rfl⟩

theorem retraced_closed : Closed (fun _ => True) fun x => Respects State.Retraced x where
  pure := respects_pure
  fail _ := respects_throw _
  bind hx hf := hx.bind hf
  reading heq hf := respects_get_bind (fun s t h => heq 0 s t h.alike) hf
  setLocal _ _ := respects_modify <| by
    rintro s _ ⟨trace, rfl⟩
    exact ⟨trace, rfl⟩
  record _ _ := respects_modify <| by
    rintro s _ ⟨trace, rfl⟩
    exact ⟨_, rfl⟩
  draw := retraced_draw
  create := retraced_onWorld _
  delete _ := retraced_onWorld _
  addComponent _ _ _ := retraced_onWorld _
  removeComponent _ _ := retraced_onWorld _
  setField _ _ _ _ := retraced_onWorld _
  clone _ := retraced_onWorld _
  resolveBound _ _ := retraced_onWorld _
  addEvent _ := retraced_addEvent _
  inFrame := retraced_inFrame
  keepingLocal := retraced_keepingLocal
  begin _ := respects_modify <| by
    rintro s _ ⟨trace, rfl⟩
    exact ⟨trace, rfl⟩

theorem indistinct_retraced : Indistinct State.Retraced where
  closed := retraced_closed
  alike h := ⟨0, h.alike⟩
  traced h u v := by
    obtain ⟨trace, rfl⟩ := h
    exact ⟨v, rfl⟩

theorem runEvent_retraced (s : Stage) (trace : TraceSink) (rules : RuleSet)
    (limits : ExecutionLimits) (event : Event) : ∃ trace',
      runEvent rules limits event { s with trace } =
        ({ (runEvent rules limits event s).1 with trace := trace' },
          (runEvent rules limits event s).2) := by
  obtain ⟨⟨trace', hstate⟩, hreport⟩ := runRules_told indistinct_retraced { rules, limits, event } {}
    (rules.rulesFor event.type) (s := { s with }) (t := { s with trace }) ⟨trace, rfl⟩
  exact ⟨trace', Prod.ext (congrArg State.toStage hstate) hreport⟩

end Execution

namespace Engine

def Retraced (e f : Engine) : Prop := ∃ trace, f = { e with trace }

variable {α : Type} {e f : Engine}

namespace Retraced

theorem arm (h : Retraced e f) : Match Retraced e.armWatchdog f.armWatchdog := by
  obtain ⟨trace, rfl⟩ := h
  unfold armWatchdog
  dsimp only
  cases e.watchdog.arm e.scheduler with
  | ok p => exact .ok ⟨trace, rfl⟩
  | error err => exact .error err

theorem cancel (h : Retraced e f) (id : Nat) :
    (f.cancel id).1 = (e.cancel id).1 ∧ Retraced (e.cancel id).2 (f.cancel id).2 := by
  obtain ⟨trace, rfl⟩ := h
  unfold Engine.cancel
  dsimp only
  split
  · exact ⟨rfl, trace, rfl⟩
  · exact ⟨rfl, trace, rfl⟩

theorem heartbeat (h : Retraced e f) : Retraced e.heartbeat f.heartbeat := by
  obtain ⟨trace, rfl⟩ := h
  obtain ⟨hwatchdog, hscheduler⟩ := e.watchdog.onHeartbeat_alike (w := e.world) (v := e.world) rfl
    e.scheduler e.trace trace
  unfold Engine.heartbeat
  dsimp only
  rw [hwatchdog, hscheduler]
  exact ⟨_, rfl⟩

theorem process (h : Retraced e f) (event : Event) :
    (f.process event).1 = (e.process event).1 ∧
      Retraced (e.process event).2 (f.process event).2 := by
  obtain ⟨trace, rfl⟩ := h
  obtain ⟨trace', hrun⟩ := Execution.runEvent_retraced e.toStage trace e.rules e.limits event
  unfold Engine.process
  dsimp only
  rw [hrun]
  exact ⟨rfl, trace', rfl⟩

theorem handle (h : Retraced e f) (event : Event) :
    (f.handle event).1 = (e.handle event).1 ∧ Retraced (e.handle event).2 (f.handle event).2 := by
  obtain ⟨hreport, trace', hafter⟩ := h.process event
  obtain ⟨trace, rfl⟩ := h
  unfold Engine.handle
  dsimp only
  rw [hreport, hafter]
  dsimp only
  split
  · exact ⟨rfl, trace', rfl⟩
  · exact ⟨rfl, trace', rfl⟩

theorem onContent (h : Retraced e f) (x : EStateM Error Content α) :
    Agree Retraced (onContent x e) (onContent x f) := by
  obtain ⟨trace, rfl⟩ := h
  unfold Engine.onContent
  dsimp only
  cases x ⟨e.world, e.rules⟩ with
  | ok a c => exact .ok a ⟨trace, rfl⟩
  | error err c => exact .error err ⟨trace, rfl⟩

end Retraced

theorem lockstep_retraced : Lockstep Retraced where
  scheduler := fun ⟨_, h⟩ => by rw [h]
  config := fun ⟨_, h⟩ => by rw [h]
  take? {e f} h := by
    obtain ⟨trace, rfl⟩ := h
    unfold Engine.take?
    dsimp only
    cases e.scheduler.pop? with
    | none => exact .inl ⟨rfl, rfl⟩
    | some p => exact .inr ⟨p.1, _, _, rfl, rfl, _, rfl⟩
  heartbeat h := h.heartbeat
  handle h := h.handle

theorem Retraced.perform (h : Retraced e f) (r : Request) :
    Retraced (e.perform r) (f.perform r) := by
  cases r with
  | install m => exact (h.onContent (Content.install m)).final
  | merge m options => exact (h.onContent (Content.merge m options)).final
  | spawnAll ds => exact (h.onContent (Content.onWorld (World.spawnAll ds))).final
  | cancel id => exact (h.cancel id).2
  | arm =>
      have harm := h.arm
      rw [Engine.perform, Engine.perform]
      generalize e.armWatchdog = x, f.armWatchdog = y at harm
      cases harm with
      | ok h => exact h
      | error err => exact h
  | step => exact (lockstep_retraced.step h).2
  | process event => exact (h.process event).2
  | schedule | disarm | setWatchdog | modifyWorld | reset | clear | setTracing =>
      obtain ⟨trace, rfl⟩ := h
      exact ⟨_, rfl⟩

end Engine

end RuleSim
