import RuleSim.Engine
import RuleSim.Proofs.Final
import RuleSim.Proofs.Scheduler.Sound

namespace RuleSim

open Watchdog (heartbeatEvent)

/-- A supervisor is active only with an interval that the queue accepts. -/
theorem WatchdogConfig.validInterval {c : WatchdogConfig} (h : c.isActive = true) :
    Scheduler.validInterval c.interval = true := by
  simp only [isActive, Bool.and_eq_true] at h
  simp [Scheduler.validInterval, h]

namespace Watchdog

/-- To arm never fails. -/
theorem arm_cases (d : Watchdog) (s : Scheduler) :
    ((d.config.isActive = false ∨ d.isArmed = true) ∧ d.arm s = .ok (d, s)) ∨
      d.heartbeat = none ∧ d.config.isActive = true ∧
        d.arm s = .ok ({ d with heartbeat := some s.nextId, unproductive := 0 },
          (s.add heartbeatEvent (s.now + Scheduler.delayOf d.config.interval) {}
            (some d.config.interval)).2) := by
  unfold arm
  by_cases h : (!d.config.isActive || d.isArmed) = true
  · rw [if_pos h]
    exact .inl ⟨by simpa using h, rfl⟩
  · rw [if_neg h]
    simp only [Bool.or_eq_true, Bool.not_eq_true', not_or, Bool.not_eq_false, Bool.not_eq_true,
      isArmed, Option.isSome_eq_false_iff, Option.isNone_iff_eq_none] at h
    refine .inr ⟨h.2, h.1, ?_⟩
    rw [Scheduler.scheduleRecurring, Scheduler.scheduleRecurringAfter,
      if_pos (WatchdogConfig.validInterval h.1)]
    rfl

theorem disarm_cases (d : Watchdog) (s : Scheduler) :
    (d.heartbeat = none ∧ d.disarm s = (d, s)) ∨
      ∃ id, d.heartbeat = some id ∧ d.disarm s = ({ d with heartbeat := none }, (s.cancel id).2) := by
  unfold disarm
  cases d.heartbeat with
  | none => exact .inl ⟨rfl, rfl⟩
  | some id => exact .inr ⟨id, rfl, rfl⟩

theorem disarm_fst (d : Watchdog) (s : Scheduler) :
    (d.disarm s).1 = { d with heartbeat := none } := by
  rcases d.disarm_cases s with ⟨hd, h⟩ | ⟨id, -, h⟩
  · rw [h, ← hd]
  · rw [h]

end Watchdog

namespace Engine

variable {e e' : Engine}

theorem armWatchdog_cases (e : Engine) :
    ((e.watchdog.config.isActive = false ∨ e.watchdog.isArmed = true) ∧
        e.armWatchdog = .ok e) ∨
      e.watchdog.heartbeat = none ∧ e.watchdog.config.isActive = true ∧
        e.armWatchdog = .ok { e with
          watchdog := { e.watchdog with heartbeat := some e.scheduler.nextId, unproductive := 0 }
          scheduler := (e.scheduler.add heartbeatEvent
            (e.time + Scheduler.delayOf e.watchdog.config.interval) {}
            (some e.watchdog.config.interval)).2 } := by
  rw [armWatchdog]
  rcases e.watchdog.arm_cases e.scheduler with ⟨hidle, h⟩ | ⟨hnone, hactive, h⟩
  · rw [h]
    exact .inl ⟨hidle, rfl⟩
  · rw [h]
    exact .inr ⟨hnone, hactive, rfl⟩

theorem disarmWatchdog_eq (e : Engine) : e.disarmWatchdog = { e with
    watchdog := { e.watchdog with heartbeat := none }
    scheduler := (e.watchdog.disarm e.scheduler).2 } := by
  rw [← e.watchdog.disarm_fst e.scheduler]
  rfl

theorem cancel_cases (e : Engine) (id : Nat) :
    (e.watchdog.heartbeat = some id ∧ e.cancel id = (true, e.disarmWatchdog)) ∨
      e.watchdog.heartbeat ≠ some id ∧ e.cancel id =
        ((e.scheduler.cancel id).1, { e with scheduler := (e.scheduler.cancel id).2 }) := by
  rw [cancel]
  by_cases h : e.watchdog.heartbeat = some id
  · exact .inl ⟨h, if_pos h⟩
  · exact .inr ⟨h, if_neg h⟩

theorem take?_eq_some {event : Event} (h : e.take? = some (event, e')) :
    ∃ scheduler, e.scheduler.pop? = some (event, scheduler) ∧ e' = { e with
      scheduler
      trace := e.trace.record (.eventFired event.id event.type event.time) } := by
  obtain ⟨⟨f, scheduler⟩, hp, heq⟩ := Option.map_eq_some_iff.mp h
  simp only [Prod.mk.injEq] at heq
  obtain ⟨rfl, rfl⟩ := heq
  exact ⟨scheduler, hp, rfl⟩

theorem take?_eq_none_of_isEmpty (h : e.scheduler.isEmpty = true) : e.take? = none := by
  rw [take?, Option.map_eq_none_iff, Scheduler.pop?_eq_none_iff]
  rw [Scheduler.isEmpty, Array.isEmpty_iff] at h
  simp [Scheduler.events, Heap.contents, h]

/-- An event of the simulation is processed, and the rounds are counted anew if it changed the
world. -/
theorem handle_snd (e : Engine) (event : Event) :
    (e.handle event).2 = { (e.process event).2 with
      watchdog := { e.watchdog with
        unproductive :=
          if (e.process event).2.world.revision = e.world.revision then e.watchdog.unproductive
          else 0 } } := by
  rw [handle]
  dsimp only
  split
  · rfl
  · rfl

/-- The heartbeat finds something to recover, and the supervisor has not given up. -/
def Recovering (e : Engine) : Prop :=
  e.scheduler.hasPendingExcept heartbeatEvent = false ∧ e.watchdog.heuristic e.world ≠ [] ∧
    e.watchdog.unproductive < e.watchdog.config.maxUnproductiveRecoveries

def recoverStalled (e : Engine) : Engine :=
  let d := { e.watchdog with unproductive := e.watchdog.unproductive + 1 }
  let (scheduler, trace) := d.recover e.scheduler e.trace (e.watchdog.heuristic e.world)
  { e with watchdog := d, scheduler, trace }

/-- A heartbeat leaves things be while something else is pending; otherwise the supervisor recovers
what is stuck, or it gives up. -/
theorem heartbeat_cases (e : Engine) :
    (e.scheduler.hasPendingExcept heartbeatEvent = true ∧ e.heartbeat = e) ∨
      (e.scheduler.hasPendingExcept heartbeatEvent = false ∧ ¬ e.Recovering ∧
        e.heartbeat = e.disarmWatchdog) ∨
      e.Recovering ∧ e.heartbeat = e.recoverStalled := by
  unfold heartbeat Watchdog.onHeartbeat
  by_cases hp : e.scheduler.hasPendingExcept heartbeatEvent = true
  · rw [if_pos hp]
    exact .inl ⟨hp, rfl⟩
  · rw [if_neg hp]
    rw [Bool.not_eq_true] at hp
    dsimp only
    by_cases hs : (e.watchdog.heuristic e.world).isEmpty = true
    · rw [if_pos hs]
      exact .inr (.inl ⟨hp, fun hr => hr.2.1 (List.isEmpty_iff.mp hs), rfl⟩)
    · rw [if_neg hs]
      by_cases hu : e.watchdog.config.maxUnproductiveRecoveries ≤ e.watchdog.unproductive
      · rw [if_pos hu]
        exact .inr (.inl ⟨hp, fun hr => Nat.not_le.mpr hr.2.2 hu, rfl⟩)
      · rw [if_neg hu]
        exact .inr (.inr ⟨⟨hp, mt List.isEmpty_iff.mpr hs, Nat.not_le.mp hu⟩, rfl⟩)

theorem final_onContent {α : Type} (x : EStateM Error Content α) (e : Engine) :
    final (onContent x) e = { e with
      world := (final x ⟨e.world, e.rules⟩).world
      rules := (final x ⟨e.world, e.rules⟩).rules } := by
  unfold final onContent
  cases x ⟨e.world, e.rules⟩ <;> rfl

end Engine

end RuleSim
