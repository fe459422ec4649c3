import RuleSim.Proofs.Engine.Taken
import RuleSim.Simulation

namespace RuleSim

namespace Engine

def afterHeartbeats? : Nat → Engine → Option Engine
  | 0, e => some e
  | n + 1, e =>
    match e.take? with
    | none => none
    | some (event, e) => if event.isHeartbeat then afterHeartbeats? n e.heartbeat else none

/-- After some heartbeats, fewer than one step may handle, the next event is past the horizon. -/
def Overruns (e : Engine) (horizon : Binary64) : Prop :=
  ∃ n e' f, 0 < n ∧ n < e.watchdog.config.maxConsecutiveHeartbeats ∧
    e.afterHeartbeats? n = some e' ∧ e'.scheduler.peek? = some f ∧ horizon.numLt f.time = true

theorem peek?_eq_take? (e : Engine) : e.scheduler.peek? = e.take?.map (·.1) := by
  rw [take?, Option.map_map]
  cases hp : e.scheduler.pop? with
  | none =>
      have hempty : e.scheduler.heap = #[] := by
        simpa [Scheduler.events, Heap.contents] using Scheduler.pop?_eq_none_iff.mp hp
      simp [Scheduler.peek?, hempty]
  | some p => exact (Scheduler.popped hp).first

def Upcoming (e : Engine) (more : Nat) (f : Event) : Prop :=
  ∃ n a, n ≤ more ∧ e.afterHeartbeats? n = some a ∧ a.scheduler.peek? = some f

theorem not_upcoming {e : Engine} {f : Event} (h : e.take? = none) (more : Nat) :
    ¬ e.Upcoming more f := by
  rintro ⟨n, a, -, ha, hf⟩
  cases n with
  | zero =>
      obtain rfl := Option.some.inj ha
      simp [peek?_eq_take?, h] at hf
  | succ n => simp [afterHeartbeats?, h] at ha

theorem upcoming_iff {e e' : Engine} {event f : Event} {more : Nat}
    (h : e.take? = some (event, e')) : e.Upcoming more f ↔
      f = event ∨ event.isHeartbeat = true ∧ ∃ m, more = m + 1 ∧ e'.heartbeat.Upcoming m f := by
  have hpeek : e.scheduler.peek? = some f ↔ f = event := by simp [peek?_eq_take?, h, eq_comm]
  constructor
  · rintro ⟨n, a, hn, ha, hf⟩
    cases n with
    | zero =>
        obtain rfl := Option.some.inj ha
        exact .inl (hpeek.mp hf)
    | succ n =>
        rw [afterHeartbeats?] at ha
        simp only [h] at ha
        split at ha
        · next hb => exact .inr ⟨hb, more - 1, by omega, n, a, by omega, ha, hf⟩
        · cases ha
  · rintro (rfl | ⟨hb, m, rfl, n, a, hn, ha, hf⟩)
    · exact ⟨0, e, Nat.zero_le _, rfl, hpeek.mpr rfl⟩
    · exact ⟨n + 1, a, Nat.succ_le_succ hn, by simp [afterHeartbeats?, h, hb, ha], hf⟩

theorem Stepped.mem_log {e e' : Engine} {more : Nat} {log : List Event}
    (hs : Stepped e more log e') (f : Event) : f ∈ log ↔ e.Upcoming more f := by
  induction hs with
  | dry more h => exact iff_of_false List.not_mem_nil (not_upcoming h more)
  | event more h hb =>
      rw [upcoming_iff h]
      simp [hb]
  | last h hb =>
      rw [upcoming_iff h]
      simp
  | heartbeat h hb hs ih =>
      rw [List.mem_cons, ih, upcoming_iff h]
      simp [hb]

/-- If the first event is not past the horizon, the step takes out one that is just if it
overruns. -/
theorem overruns_iff {e : Engine} {horizon : Binary64}
    (h : ∀ f ∈ e.scheduler.peek?, horizon.numLt f.time = false) :
    e.Overruns horizon ↔ ∃ f ∈ e.taken, horizon.numLt f.time = true := by
  constructor
  · rintro ⟨n, a, f, -, hn, ha, hf, hpast⟩
    exact ⟨f, (e.step_stepped.mem_log f).mpr ⟨n, a, by omega, ha, hf⟩, hpast⟩
  · rintro ⟨f, hf, hpast⟩
    obtain ⟨n, a, hn, ha, hpeek⟩ := (e.step_stepped.mem_log f).mp hf
    cases n with
    | zero =>
        obtain rfl := Option.some.inj ha
        simp [h f hpeek] at hpast
    | succ n => exact ⟨n + 1, a, f, Nat.succ_pos n, by omega, ha, hpeek, hpast⟩

end Engine

namespace Simulation

def Tells {α : Type} (x : Host α) : Prop :=
  ∀ s, ∃ sink, (final x s).engine = { s.engine with trace := sink }

variable {α β : Type}

theorem tells_pure (a : α) : Tells (pure a : Host α) := fun s => ⟨s.engine.trace, rfl⟩

theorem tells_throw (e : Error) : Tells (throw e : Host α) := fun s => ⟨s.engine.trace, rfl⟩

theorem tells_notify (n : Notification) : Tells (notify n) := fun s => ⟨s.engine.trace, rfl⟩

theorem Tells.bind {x : Host α} {f : α → Host β} (hx : Tells x) (hf : ∀ a, Tells (f a)) :
    Tells (x >>= f) := by
  refine final_bind_trans
    (R := fun s t : Simulation => ∃ sink, t.engine = { s.engine with trace := sink }) ?_ hx hf
  rintro s t u ⟨sink, h⟩ ⟨sink', h'⟩
  exact ⟨sink', by rw [h', h]⟩

/-- Trace records go to the buffer and to the subscribers. -/
theorem foldl_capture (time : Binary64) (events : List TraceEvent) (s : Simulation) :
    ∃ trace subscribers, events.foldl (capture time) s = { s with trace, subscribers } := by
  induction events generalizing s with
  | nil => exact ⟨s.trace, s.subscribers, rfl⟩
  | cons e events ih => exact ih (capture time s e)

theorem flushTrace_eq (s : Simulation) : ∃ sink trace subscribers, flushTrace s =
    .ok ⟨⟩ { s with engine := { s.engine with trace := sink }, trace, subscribers } := by
  obtain ⟨trace, subscribers, h⟩ := foldl_capture s.time s.engine.trace.drain.1
    { s with engine := { s.engine with trace := s.engine.trace.drain.2 } }
  exact ⟨_, trace, subscribers, congrArg (EStateM.Result.ok PUnit.unit) h⟩

theorem tells_flushTrace : Tells flushTrace := by
  intro s
  obtain ⟨sink, _, _, h⟩ := flushTrace_eq s
  exact ⟨sink, by rw [final_of_ok h]⟩

theorem tells_failures (failures : List RuleFailure) :
    Tells (failures.forM fun f => notify (.ruleFailed f)) := by
  induction failures with
  | nil => exact tells_pure _
  | cons f failures ih => exact (tells_notify _).bind fun _ => ih

abbrev Refuses (s : Simulation) : Prop := s.phase = .paused ∨ s.phase = .stopped

theorem step_of_refuses {s : Simulation} (h : s.Refuses) :
    step s = .error ⟨.invalidState "step" s.phase.text, none⟩ s := by
  unfold step
  rw [get_bind, if_pos h]
  rfl

theorem step_engine {s : Simulation} (h : ¬ s.Refuses) :
    ∃ sink, (final step s).engine = { s.engine.step.2 with trace := sink } := by
  unfold step
  rw [final_get_bind, if_neg h]
  cases s.engine.step with
  | mk outcome engine =>
      dsimp only
      rw [final_set_bind]
      refine (tells_flushTrace.bind fun _ => ?_) { s with engine }
      cases outcome with
      | none => exact (tells_notify _).bind fun _ => tells_pure _
      | some outcome =>
          refine (tells_notify _).bind fun _ => (tells_failures _).bind fun _ => ?_
          cases outcome.report.failures with
          | nil => exact tells_pure _
          | cons f failures => exact tells_throw _

def visits (horizon : Option Binary64) : Nat → Simulation → List Simulation
  | 0, _ => []
  | remaining + 1, s =>
    if s.isPast horizon ∨ s.Refuses then []
    else s :: match step s with
      | .ok (some _) t => visits horizon remaining t
      | .ok none _ | .error _ _ => []

def visitsOf (s : Simulation) (limits : RunLimits) : List Simulation :=
  s.visits limits.maxTime (limits.maxEvents.getD maxEvents)

def takenBy (s : Simulation) (limits : RunLimits) : List Event :=
  (s.visitsOf limits).flatMap (·.engine.taken)

theorem final_runFrom (horizon : Option Binary64) (summary : RunSummary) (remaining : Nat)
    (s : Simulation) :
    final (runFrom horizon summary (remaining + 1)) s =
      if s.isPast horizon then s
      else match step s with
        | .ok (some outcome) t => final (runFrom horizon { summary with
            events := summary.events + 1
            heartbeats := summary.heartbeats + outcome.heartbeats } remaining) t
        | .ok none t | .error _ t => t := by
  have hrun : final (runFrom horizon summary (remaining + 1)) s =
      final (if s.isPast horizon then pure _ else step >>= _ : Host RunSummary) s := rfl
  rw [hrun]
  split
  · rfl
  · rw [final_bind]
    cases step s with
    | ok outcome t => cases outcome <;> rfl
    | error e t => rfl

theorem runFrom_drains (horizon : Option Binary64) (summary : RunSummary) (remaining : Nat)
    (s : Simulation) :
    Engine.Drains s.engine ((s.visits horizon remaining).flatMap (·.engine.taken))
      (final (runFrom horizon summary remaining) s).engine := by
  induction remaining generalizing s summary with
  | zero => exact .of_grows (.refl _) rfl
  | succ remaining ih =>
      rw [final_runFrom, visits]
      by_cases hp : s.isPast horizon = true
      · rw [if_pos hp, if_pos (.inl hp)]
        exact .of_grows (.refl _) rfl
      · rw [if_neg hp]
        by_cases hr : s.Refuses
        · rw [if_pos (.inr hr), step_of_refuses hr]
          exact .of_grows (.refl _) rfl
        · rw [if_neg (not_or.mpr ⟨hp, hr⟩), List.flatMap_cons]
          obtain ⟨sink, hs⟩ := step_engine hr
          have hd : Engine.Drains s.engine s.engine.taken (final step s).engine := by
            have h := s.engine.step_drains
            rw [hs]
            exact ⟨h.clock, h.pending, h.heartbeat⟩
          unfold final at hd
          cases he : step s with
          | ok outcome t =>
              rw [he] at hd
              cases outcome with
              | none => simpa using hd
              | some outcome => exact hd.trans (ih _ t)
          | error e t =>
              rw [he] at hd
              simpa using hd

theorem run_drains (s : Simulation) (limits : RunLimits) :
    Engine.Drains s.engine (s.takenBy limits) (final (run limits) s).engine := by
  have hrun : final (run limits) s =
      final (runFrom limits.maxTime {} (limits.maxEvents.getD maxEvents)) s := by
    rw [run, final_bind]
    unfold final
    cases runFrom limits.maxTime {} (limits.maxEvents.getD maxEvents) s <;> rfl
  rw [hrun]
  exact runFrom_drains ..

/-- What comes next where a run takes a step is not past the horizon. -/
theorem not_past_of_mem_visits {horizon : Binary64} {remaining : Nat} {s t : Simulation}
    (ht : t ∈ s.visits (some horizon) remaining) :
    ∀ f ∈ t.engine.scheduler.peek?, horizon.numLt f.time = false := by
  induction remaining generalizing s with
  | zero => simp [visits] at ht
  | succ remaining ih =>
      rw [visits] at ht
      split at ht
      · simp at ht
      · next hnot =>
          rcases List.mem_cons.mp ht with rfl | ht
          · intro f hf
            have hp := (not_or.mp hnot).1
            rw [Option.mem_def] at hf
            simpa [isPast, hf] using hp
          · split at ht
            · exact ih ht
            · simp at ht
            · simp at ht

/-- Nothing past the horizon comes out of the queue, what is pending there stays pending, but for
the heartbeat of a supervisor that gives up, and the clock does not pass the horizon. -/
structure HonoursHorizon (s : Simulation) (maxEvents : Option Nat) (horizon : Binary64) :
    Prop where
  taken : ∀ f ∈ s.takenBy ⟨maxEvents, some horizon⟩, horizon.numLt f.time = false
  pending : ∀ f ∈ s.engine.scheduler.heap, horizon.numLt f.time = true →
    f ∈ (final (run ⟨maxEvents, some horizon⟩) s).engine.scheduler.heap ∨
      (s.engine.watchdog.heartbeat = some f.id ∧
        (final (run ⟨maxEvents, some horizon⟩) s).engine.watchdog.heartbeat = none)
  clock : horizon.numLt (final (run ⟨maxEvents, some horizon⟩) s).time = false ∨
    (final (run ⟨maxEvents, some horizon⟩) s).time = s.time

/-- A run honours its horizon unless it takes a step in which heartbeats come first and an event
past the horizon comes after them. -/
theorem honoursHorizon_iff (s : Simulation) (maxEvents : Option Nat) (horizon : Binary64) :
    s.HonoursHorizon maxEvents horizon ↔
      ∀ t ∈ s.visitsOf ⟨maxEvents, some horizon⟩, ¬ t.engine.Overruns horizon := by
  constructor
  · intro h t ht hover
    obtain ⟨f, hf, hpast⟩ := (Engine.overruns_iff (not_past_of_mem_visits ht)).mp hover
    have hnot := h.taken f (List.mem_flatMap.mpr ⟨t, ht, hf⟩)
    simp [hnot] at hpast
  · intro h
    have htaken : ∀ f ∈ s.takenBy ⟨maxEvents, some horizon⟩, horizon.numLt f.time = false := by
      intro f hf
      obtain ⟨t, ht, hf⟩ := List.mem_flatMap.mp hf
      by_contra hpast
      refine h t ht ((Engine.overruns_iff (not_past_of_mem_visits ht)).mpr ⟨f, hf, ?_⟩)
      simpa using hpast
    have hd := s.run_drains ⟨maxEvents, some horizon⟩
    refine ⟨htaken, fun f hf hpast => ?_, ?_⟩
    · rcases hd.pending f (Scheduler.mem_events.mpr hf) with hl | hb | hp
      · simp [htaken f hl] at hpast
      · exact .inr hb
      · exact .inl (Scheduler.mem_events.mp hp)
    · rcases hd.clock with hc | ⟨f, hf, hc⟩
      · exact .inr hc
      · refine .inl ?_
        rw [show (final (run ⟨maxEvents, some horizon⟩) s).time = f.time from hc]
        exact htaken f hf

def late : Simulation :=
  final (do let _ ← schedule "late" (.ofInt 8) {}; start : Host Unit) (new {})

/-- The step that begins with the heartbeat goes on to the event, past the horizon. -/
theorem late_not_honoursHorizon : ¬ late.HonoursHorizon none (.ofInt 7) := by
  intro h
  have hclock := h.clock
  have hafter : (final (run ⟨none, some (.ofInt 7)⟩) late).time = .ofInt 8 := by decide +kernel
  rw [hafter] at hclock
  revert hclock
  decide +kernel

end Simulation

end RuleSim
