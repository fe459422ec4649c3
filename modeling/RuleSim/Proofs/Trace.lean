import Mathlib.Data.List.Basic
import RuleSim.Trace

namespace RuleSim.TraceBuffer

inductive Request where
  | push (time : Binary64) (event : TraceEvent)
  | resize (maxSize : Nat)
  | clear

def perform (b : TraceBuffer) : Request → TraceBuffer
  | .push time event => (b.push time event).2
  | .resize maxSize => b.resize maxSize
  | .clear => b.clear

def after (b : TraceBuffer) (rs : List Request) : TraceBuffer := rs.foldl perform b

def pushed (id : Nat) : List Request → List TraceRecord
  | [] => []
  | .push time event :: rs => ⟨id, time, event⟩ :: pushed (id + 1) rs
  | .resize _ :: rs | .clear :: rs => pushed id rs

/-- The buffer after all of the records of the past were pushed. -/
structure Window (b : TraceBuffer) (past : List TraceRecord) : Prop where
  latest : b.records <:+ past
  ids : past.map (·.id) = List.range b.nextId
  bound : b.records.length ≤ max 1 b.maxSize

variable {b : TraceBuffer} {past : List TraceRecord}

theorem ofSize_window (maxSize : Nat) : Window (ofSize maxSize) [] :=
  ⟨List.suffix_rfl, rfl, Nat.zero_le _⟩

theorem Window.push (h : Window b past) (time : Binary64) (event : TraceEvent) :
    Window (b.push time event).2 (past ++ [⟨b.nextId, time, event⟩]) where
  latest := by
    obtain ⟨gone, hgone⟩ := (List.drop_suffix _ b.records).trans h.latest
    exact ⟨gone, by rw [← hgone, List.append_assoc]; rfl⟩
  ids := by
    rw [List.map_append, h.ids, TraceBuffer.push, List.range_succ]
    rfl
  bound := by
    simp only [TraceBuffer.push, List.length_append, List.length_drop, List.length_singleton]
    omega

theorem Window.resize (h : Window b past) (maxSize : Nat) : Window (b.resize maxSize) past where
  latest := (List.drop_suffix _ b.records).trans h.latest
  ids := h.ids
  bound := by
    simp only [TraceBuffer.resize, List.length_drop]
    omega

theorem Window.clear (h : Window b past) : Window b.clear past :=
  ⟨List.nil_suffix, h.ids, Nat.zero_le _⟩

theorem Window.after (h : Window b past) (rs : List Request) :
    Window (b.after rs) (past ++ pushed b.nextId rs) := by
  induction rs generalizing b past with
  | nil =>
      rw [pushed, List.append_nil]
      exact h
  | cons r rs ih =>
      cases r with
      | push time event =>
          have hrest := ih (h.push time event)
          rw [List.append_assoc] at hrest
          exact hrest
      | resize maxSize => exact ih (h.resize maxSize)
      | clear => exact ih h.clear

/-- The records have consecutive numbers, up to the last one given out. -/
theorem Window.consecutive (h : Window b past) :
    b.records.length ≤ b.nextId ∧ b.records.map (·.id) =
      List.range' (b.nextId - b.records.length) b.records.length := by
  obtain ⟨gone, hgone⟩ := h.latest
  have hids := h.ids
  rw [← hgone, List.map_append] at hids
  have hsum : gone.length + b.records.length = b.nextId := by
    have hlength := congrArg List.length hids
    rwa [List.length_append, List.length_map, List.length_map, List.length_range] at hlength
  rw [← hsum, List.range_eq_range', ← List.range'_append_1, Nat.zero_add] at hids
  have hrecords := List.append_inj_right hids (by rw [List.length_map, List.length_range'])
  exact ⟨by omega, by rw [hrecords, ← hsum, Nat.add_sub_cancel_right]⟩

/-- A push drops the oldest records, and no more of them than it must. -/
theorem push_drops (b : TraceBuffer) (time : Binary64) (event : TraceEvent) :
    ∃ k, (b.push time event).2.records = b.records.drop k ++ [⟨b.nextId, time, event⟩] ∧
      ∀ j, (b.records.drop j ++ [(b.push time event).1]).length ≤ max 1 b.maxSize → k ≤ j := by
  refine ⟨_, rfl, fun j hj => ?_⟩
  simp only [List.length_append, List.length_drop, List.length_singleton] at hj
  omega

theorem recent_length (b : TraceBuffer) (count : Nat) :
    (b.recent count).length = min count b.records.length := by
  rw [recent, List.length_drop]
  omega

end RuleSim.TraceBuffer
