import RuleSim.Proofs.Scheduler.Delivery

namespace RuleSim.Scheduler

variable {s t u : Scheduler} {es fs : List Event}

/-- The second queue is the first one and some more events, which were added in their order. -/
structure Appends (s : Scheduler) (es : List Event) (t : Scheduler) : Prop where
  now : t.now = s.now
  events : t.events = ↑es + s.events
  ids : es.map (·.id) = List.range' s.nextId es.length
  sequences : es.map (·.sequence) = List.range' s.nextSequence es.length
  nextId : t.nextId = s.nextId + es.length
  nextSequence : t.nextSequence = s.nextSequence + es.length
  due : ∀ e ∈ es, Due s.now e.time

theorem Appends.refl (s : Scheduler) : Appends s [] s where
  now := rfl
  events := (Multiset.zero_add _).symm
  ids := rfl
  sequences := rfl
  nextId := rfl
  nextSequence := rfl
  due := nofun

theorem Appends.trans (h : Appends s es t) (h' : Appends t fs u) : Appends s (es ++ fs) u where
  now := h'.now.trans h.now
  events := by
    rw [h'.events, h.events, ← Multiset.coe_add, ← Multiset.add_assoc,
      Multiset.add_comm (fs : Multiset Event)]
  ids := by
    rw [List.map_append, h.ids, h'.ids, h.nextId, List.length_append, List.range'_append_1]
  sequences := by
    rw [List.map_append, h.sequences, h'.sequences, h.nextSequence, List.length_append,
      List.range'_append_1]
  nextId := by rw [h'.nextId, h.nextId, List.length_append, Nat.add_assoc]
  nextSequence := by rw [h'.nextSequence, h.nextSequence, List.length_append, Nat.add_assoc]
  due := by
    rw [List.forall_mem_append]
    exact ⟨h.due, h.now ▸ h'.due⟩

theorem appends_add (type : String) {time : Binary64} (payload : Payload)
    (interval : Option Binary64) (hd : Due s.now time) :
    Appends s [⟨s.nextId, type, time, payload, s.nextSequence, interval⟩]
      (s.add type time payload interval).2 where
  now := rfl
  events := s.events_add type time payload interval
  ids := rfl
  sequences := rfl
  nextId := rfl
  nextSequence := rfl
  due := List.forall_mem_singleton.mpr hd

theorem Appends.increasing (h : Appends s es t) :
    es.Pairwise fun a b => a.id < b.id ∧ a.sequence < b.sequence := by
  have hids : (es.map (·.id)).Pairwise (· < ·) := h.ids ▸ List.pairwise_lt_range'
  have hsequences : (es.map (·.sequence)).Pairwise (· < ·) :=
    h.sequences ▸ List.pairwise_lt_range'
  exact (List.pairwise_map.mp hids).and (List.pairwise_map.mp hsequences)

theorem Appends.above (h : Appends s es t) {e : Event} (he : e ∈ es) :
    s.nextId ≤ e.id ∧ s.nextSequence ≤ e.sequence := by
  have hid : e.id ∈ List.range' s.nextId es.length := h.ids ▸ List.mem_map_of_mem he
  have hsequence : e.sequence ∈ List.range' s.nextSequence es.length :=
    h.sequences ▸ List.mem_map_of_mem he
  exact ⟨(List.mem_range'_1.mp hid).1, (List.mem_range'_1.mp hsequence).1⟩

theorem Appends.not_past (h : Appends s es t) (hs : Sound s) {e : Event} (he : e ∈ es) :
    e.time.isNaN = false ∧ s.now.numLe e.time = true := by
  obtain ⟨htime, hle⟩ := (h.due e he).isTime hs.now
  exact ⟨htime.not_nan, (hs.now.numLe_iff htime).mpr hle⟩

def Held (s : Scheduler) (rs : List Request) (e : Event) : Prop :=
  ∃ before later, rs = before ++ later ∧ e ∈ (s.after before).events

theorem Move.nextSequence_le {a : Answer} (hm : Move s a t) : s.nextSequence ≤ t.nextSequence := by
  cases hm with
  | add => exact Nat.le_succ _
  | refuse | dry | clear => exact le_rfl
  | pop h =>
      rw [(popped h).nextSequence]
      split
      · exact Nat.le_succ _
      · exact le_rfl
  | cancel k =>
      rcases s.cancel_cases k with ⟨hc, -⟩ | ⟨e, heap, hc, -⟩
      · rw [hc]
      · rw [hc]

theorem nextSequence_le_after (s : Scheduler) (rs : List Request) :
    s.nextSequence ≤ (s.after rs).nextSequence := by
  induction rs generalizing s with
  | nil => exact le_rfl
  | cons r rs ih => exact (perform_move s r).nextSequence_le.trans (ih _)

theorem Sound.held_lt (hs : Sound s) {rs : List Request} {e : Event} (h : s.Held rs e) :
    e.id < (s.after rs).nextId ∧ e.sequence < (s.after rs).nextSequence := by
  obtain ⟨before, later, rfl, he⟩ := h
  have hf := (hs.after before).future e he
  rw [after_append]
  exact ⟨hf.id.trans_le (nextId_le_after _ later),
    hf.sequence.trans_le (nextSequence_le_after _ later)⟩

end RuleSim.Scheduler
