import RuleSim.Proofs.Engine.Queue
import RuleSim.Proofs.Simulation.Loading
import RuleSim.Proofs.Trace

namespace RuleSim

open Binary64 (IsTime)

theorem Engine.Request.OfCall.goes_on {r : Request} (h : r.OfCall) : ¬ r.Rewinds := by
  cases r with
  | reset | clear => exact fun _ => h
  | _ => exact id

theorem Engine.Request.OfContent.goes_on {r : Request} (h : r.OfContent) : ¬ r.Rewinds := by
  cases r with
  | reset | clear => exact fun _ => h
  | _ => exact id

namespace Simulation

/-- Some of the records from before are left, and those captured since are in the order of time. -/
structure Orderly (before : List TraceRecord) (s : Simulation) : Prop where
  queue : s.engine.scheduler.Sound
  split : ∃ old captured, s.trace.records = old ++ captured ∧ old <:+ before ∧
    captured.Pairwise (fun a b => a.time.magnitude ≤ b.time.magnitude) ∧
    ∀ r ∈ captured, IsTime r.time ∧ r.time.magnitude ≤ s.time.magnitude

variable {before : List TraceRecord} {s : Simulation}

theorem orderly_start (h : s.engine.scheduler.Sound) : Orderly s.trace.records s :=
  ⟨h, s.trace.records, [], (List.append_nil _).symm, List.suffix_rfl, .nil, nofun⟩

theorem Orderly.moved (h : Orderly before s) {e : Engine}
    (he : s.engine.scheduler.Leads e.scheduler) : Orderly before { s with engine := e } := by
  obtain ⟨old, captured, hrecords, hold, htimes, hpast⟩ := h.split
  refine ⟨he.sound h.queue, old, captured, hrecords, hold, htimes, fun r hr => ?_⟩
  exact ⟨(hpast r hr).1, (hpast r hr).2.trans (he.now_le h.queue)⟩

theorem Orderly.captured (h : Orderly before s) (e : TraceEvent) :
    Orderly before (capture s.time s e) := by
  obtain ⟨old, captured, hrecords, hold, htimes, hpast⟩ := h.split
  refine ⟨h.queue, ?_⟩
  generalize hk : s.trace.records.length + 1 - max 1 s.trace.maxSize = k
  refine ⟨old.drop k, captured.drop (k - old.length) ++ [⟨s.trace.nextId, s.time, e⟩], ?_, ?_, ?_, ?_⟩
  · rw [← List.append_assoc, ← List.drop_append, ← hrecords, ← hk]
    rfl
  · exact (List.drop_suffix k old).trans hold
  · rw [List.pairwise_append]
    refine ⟨htimes.sublist (List.drop_sublist _ _), List.pairwise_singleton _ _, ?_⟩
    intro a ha b hb
    obtain rfl := List.mem_singleton.mp hb
    exact (hpast a (List.mem_of_mem_drop ha)).2
  · intro r hr
    rcases List.mem_append.mp hr with hr | hr
    · exact hpast r (List.mem_of_mem_drop hr)
    · obtain rfl := List.mem_singleton.mp hr
      exact ⟨h.queue.now, le_rfl⟩

theorem orderly_emptied (h : s.engine.scheduler.Sound) (hs : s.trace.records = []) :
    Orderly before s := ⟨h, [], [], hs, List.nil_suffix, .nil, nofun⟩

theorem orderly_drives (before : List TraceRecord) :
    Drives fun s t => Orderly before s → Orderly before t where
  refl _ h := h
  trans h h' := h' ∘ h
  entered _ _ h := ⟨h.queue, h.split⟩
  told _ _ h := ⟨h.queue, h.split⟩
  request s _ hr h := h.moved (s.engine.perform_queue hr.goes_on)
  written _ h := h.moved (.refl _)
  drained _ h := h.moved (.refl _)
  captured _ e h := h.captured e
  forgotten _ h := orderly_emptied h.queue rfl
  content s _ hr h := h.moved (s.engine.perform_queue hr.goes_on)
  listed _ _ _ h := ⟨h.queue, h.split⟩
  emptied _ h := h.moved (.refl _)
  restarted _ _ := orderly_emptied Scheduler.empty_sound rfl
  unloaded _ _ := orderly_emptied Scheduler.empty_sound rfl

/-- The operation makes the engine start over, behind the back of the simulation. -/
def Operation.Rewinds : Operation → Prop
  | .engine r _ => r.Rewinds
  | _ => False

theorem Orderly.operate (h : Orderly before s) {o : Operation} (ho : ¬ o.Rewinds) :
    Orderly before (s.operate o) := by
  cases o with
  | engine r _ => exact h.moved (s.engine.perform_queue ho)
  | world r => exact h.moved (.refl _)
  | _ => exact (orderly_drives before).operate s trivial h

theorem Orderly.foldl (h : Orderly before s) {os : List Operation} (hos : ∀ o ∈ os, ¬ o.Rewinds) :
    Orderly before (os.foldl Simulation.operate s) := by
  induction os generalizing s with
  | nil => exact h
  | cons o os ih =>
      rw [List.forall_mem_cons] at hos
      exact ih (h.operate hos.1) hos.2

/-- The queue of a simulation is sound, also if the engine starts over. -/
theorem Reachable.queue (h : s.Reachable) : s.engine.scheduler.Sound := by
  induction h with
  | new config => exact Scheduler.empty_sound
  | @operation s o _ ih =>
      by_cases ho : o.Rewinds
      · cases o with
        | engine r _ =>
            cases r with
            | reset | clear => exact Scheduler.empty_sound
            | _ => exact ho.elim
        | _ => exact ho.elim
      · exact ((orderly_start ih).operate ho).queue

theorem load_empties (m : Module) (h : s.phase ≠ .running) :
    (s.operate (.load m)).trace.records = [] := by
  rw [operate]
  cases hi : Engine.install m s.engine.clear with
  | ok report engine =>
      obtain ⟨subscribers, hload⟩ := load_of_ok h hi
      rw [final_of_ok hload]
      rfl
  | error e engine =>
      rw [final_of_error (load_of_error h hi)]
      rfl

theorem reset_empties (s : Simulation) : (s.operate .reset).trace.records = [] := by
  have hspawn (ds : List EntityDecl) (s : Simulation) :
      (final (onEngine (Engine.spawnAll ds)) s).trace = s.trace := by
    rw [final, onEngine]
    cases Engine.spawnAll ds s.engine <;> rfl
  have henter (s : Simulation) :
      (final (do enter .idle; notify .reset : Host Unit) s).trace = s.trace := by
    obtain ⟨subscribers, h⟩ := enter_notify_eq .idle .reset s
    rw [final_of_ok h]
  rw [operate, reset, final_modify_bind, final_get_bind]
  exact congrArg TraceBuffer.records (final_bind_trans
    (R := fun s t : Simulation => t.trace = s.trace) (fun h h' => h'.trans h) (hspawn _)
    (fun _ => henter) _)

/-- The records of a buffer are the latest of all that were pushed, oldest first: their numbers are
consecutive up to the last one given out, no number is given out twice, there are no more of them
than the bound allows, a push drops no more of the oldest than it must, and the recent ones are the
latest, as many as are asked for. In a simulation a load and a reset empty the buffer, and what is
captured from some point on, until the engine is made to start over, is in the order of time. -/
theorem trace_windows :
    (∀ (maxSize : Nat) (rs : List TraceBuffer.Request) (b : TraceBuffer),
      (TraceBuffer.ofSize maxSize).after rs = b →
      b.records <:+ TraceBuffer.pushed 0 rs ∧
      (TraceBuffer.pushed 0 rs).map (·.id) = List.range b.nextId ∧
      b.records.map (·.id) = List.range' (b.nextId - b.records.length) b.records.length ∧
      b.records.length ≤ min b.nextId (max 1 b.maxSize) ∧
      (∀ time event, ∃ k, (b.push time event).2.records =
          b.records.drop k ++ [⟨b.nextId, time, event⟩] ∧
        ∀ j, (b.records.drop j ++ [(b.push time event).1]).length ≤ max 1 b.maxSize → k ≤ j) ∧
      ∀ count, b.recent count <:+ b.records ∧
        (b.recent count).length = min count b.records.length) ∧
    (∀ (s : Simulation) (m : Module),
      (s.phase ≠ .running → (s.operate (.load m)).trace.records = []) ∧
        (s.operate .reset).trace.records = []) ∧
    ∀ s : Simulation, s.Reachable → ∀ os : List Operation, (∀ o ∈ os, ¬ o.Rewinds) →
      ∃ old captured, (os.foldl operate s).trace.records = old ++ captured ∧
        old <:+ s.trace.records ∧ captured.Pairwise fun a b => a.time.numLe b.time = true := by
  refine ⟨?_, fun s m => ⟨load_empties m, s.reset_empties⟩, fun s hs os hos => ?_⟩
  · rintro maxSize rs b rfl
    have h := (TraceBuffer.ofSize_window maxSize).after rs
    rw [List.nil_append] at h
    obtain ⟨hle, hids⟩ := h.consecutive
    exact ⟨h.latest, h.ids, hids, le_min hle h.bound, TraceBuffer.push_drops _,
      fun count => ⟨List.drop_suffix _ _, TraceBuffer.recent_length _ count⟩⟩
  · obtain ⟨old, captured, hrecords, hold, htimes, hpast⟩ :=
      ((orderly_start hs.queue).foldl hos).split
    refine ⟨old, captured, hrecords, hold, htimes.imp_of_mem fun ha hb hle => ?_⟩
    exact ((hpast _ ha).1.numLe_iff (hpast _ hb).1).mpr hle

def watchedFall : List Operation :=
  [.load cliff, .call (.setTracing true), .call (.schedule "fall" .zero {}), .call .start,
    .call .step]

/-- Of five records the last three are left, and those of the fall are in order. -/
theorem watchedFall_windows :
    (((TraceBuffer.ofSize 3).after
      (.replicate 5 (.push .zero (.eventFired 0 "tick" .zero)))).records.map (·.id) = [2, 3, 4]) ∧
    ((new {}).operate (.load cliff)).trace.records = [] ∧
    (watchedFall.foldl operate (new {})).trace.records.length = 4 ∧
    (watchedFall.foldl operate (new {})).trace.records.Pairwise fun a b =>
      a.time.numLe b.time = true := by
  obtain ⟨hbuffer, hempty, horder⟩ := trace_windows
  obtain ⟨-, -, hids, -⟩ := hbuffer 3 (.replicate 5 (.push .zero (.eventFired 0 "tick" .zero))) _ rfl
  refine ⟨hids.trans (by decide), (hempty (new {}) cliff).1 (by decide), by decide +kernel, ?_⟩
  obtain ⟨old, captured, hrecords, hold, htimes⟩ :=
    horder (new {}) (.new {}) watchedFall (by simp [watchedFall, Operation.Rewinds])
  rw [List.suffix_nil.mp hold, List.nil_append] at hrecords
  rwa [hrecords]

end Simulation

end RuleSim
