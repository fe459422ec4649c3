import Mathlib.Data.Multiset.Filter
import RuleSim.Proofs.Scheduler.Sound

namespace RuleSim

/-- A collection of pending events without any order, out of which the least event is taken. A heap
is one way to keep it. -/
structure Agenda where
  pending : Multiset Event
  now : Binary64
  nextId : Nat
  nextSequence : Nat

namespace Agenda

open Scheduler (Request Answer delayOf validInterval)

def empty : Agenda := ⟨0, Binary64.zero, 0, 0⟩

def IsNext (a : Agenda) (e : Event) : Prop :=
  e ∈ a.pending ∧ ∀ f ∈ a.pending.erase e, e.precedes f = true

def add (a : Agenda) (type : String) (time : Binary64) (payload : Payload)
    (interval : Option Binary64) : Agenda where
  pending := ⟨a.nextId, type, time, payload, a.nextSequence, interval⟩ ::ₘ a.pending
  now := a.now
  nextId := a.nextId + 1
  nextSequence := a.nextSequence + 1

/-- Takes an event out. A recurring one comes back, alike but for its time and its fresh
sequence number. -/
def take (a : Agenda) (e : Event) : Agenda where
  pending := e.again a.nextSequence + a.pending.erase e
  now := if a.now.numLt e.time then e.time else a.now
  nextId := a.nextId
  nextSequence := if e.isRecurring then a.nextSequence + 1 else a.nextSequence

def drop (a : Agenda) (id : Nat) : Agenda := { a with pending := a.pending.filter (·.id ≠ id) }

def Answers (a : Agenda) : Request → Answer → Agenda → Prop
  | .schedule type delay payload, answer, b =>
      answer = .id a.nextId ∧ b = a.add type (a.now + delayOf delay) payload none
  | .scheduleAt type time payload, answer, b =>
      answer = .id a.nextId ∧
        b = a.add type (if a.now.numLt time then time else a.now) payload none
  | .scheduleNow type payload, answer, b =>
      answer = .id a.nextId ∧ b = a.add type a.now payload none
  | .scheduleRecurring type interval payload, answer, b =>
      if validInterval interval then
        answer = .id a.nextId ∧ b = a.add type (a.now + delayOf interval) payload (some interval)
      else (∃ e, answer = .refused e) ∧ b = a
  | .scheduleRecurringAfter type delay interval payload, answer, b =>
      if validInterval interval then
        answer = .id a.nextId ∧ b = a.add type (a.now + delayOf delay) payload (some interval)
      else (∃ e, answer = .refused e) ∧ b = a
  | .pop, answer, b =>
      (a.pending = 0 ∧ answer = .event none ∧ b = a) ∨
        ∃ e, a.IsNext e ∧ answer = .event (some e) ∧ b = a.take e
  | .cancel id, answer, b =>
      (∃ found, answer = .found found ∧ (found = true ↔ ∃ e ∈ a.pending, e.id = id)) ∧ b = a.drop id
  | .clear, answer, b => answer = .done ∧ b = { a with pending := 0 }

theorem IsNext.unique {a : Agenda} {e f : Event} (he : a.IsNext e) (hf : a.IsNext f) : e = f := by
  by_contra hne
  have hef := he.2 f ((Multiset.mem_erase_of_ne (Ne.symm hne)).mpr hf.1)
  have hfe := hf.2 e ((Multiset.mem_erase_of_ne hne).mpr he.1)
  exact absurd (Event.precedes_strict.asymm hef) (by simp [hfe])

end Agenda

namespace Scheduler

def agenda (s : Scheduler) : Agenda := ⟨s.events, s.now, s.nextId, s.nextSequence⟩

theorem agenda_add (s : Scheduler) (type : String) (time : Binary64) (payload : Payload)
    (interval : Option Binary64) :
    (s.add type time payload interval).2.agenda = s.agenda.add type time payload interval := by
  simp only [agenda, Agenda.add, events_add]
  rfl

theorem answers_recurring (s : Scheduler) (type : String) (delay interval : Binary64)
    (payload : Payload) :
    s.agenda.Answers (.scheduleRecurringAfter type delay interval payload)
      (s.perform (.scheduleRecurringAfter type delay interval payload)).1
      (s.perform (.scheduleRecurringAfter type delay interval payload)).2.agenda := by
  rcases s.scheduleRecurringAfter_cases type delay interval payload with ⟨hv, h⟩ | ⟨hv, e, h⟩
  · simp only [Agenda.Answers, perform, h, hv, if_true]
    exact ⟨rfl, s.agenda_add ..⟩
  · simp only [Agenda.Answers, perform, h, hv, Bool.false_eq_true, if_false]
    exact ⟨⟨e, rfl⟩, trivial⟩

theorem Sound.isNext {s t : Scheduler} {e : Event} (hs : Sound s) (hp : s.pop? = some (e, t)) :
    s.agenda.IsNext e ∧ t.agenda = s.agenda.take e := by
  have hpd := popped hp
  obtain ⟨rest, hev, hev'⟩ := hpd.rest
  refine ⟨⟨hpd.mem, hs.pop_least hp⟩, ?_⟩
  simp only [agenda, Agenda.take, hev, hev', Multiset.erase_cons_head, hpd.now, hpd.nextId,
    hpd.nextSequence]

theorem Sound.peek_iff {s : Scheduler} (hs : Sound s) (e : Event) :
    s.peek? = some e ↔ s.agenda.IsNext e := by
  constructor
  · intro hpeek
    cases hp : s.pop? with
    | none =>
        have hmem : e ∈ s.events := mem_events.mpr (Array.mem_of_getElem? hpeek)
        rw [pop?_eq_none_iff.mp hp] at hmem
        exact absurd hmem (Multiset.notMem_zero e)
    | some p =>
        have hfirst := (popped hp).first
        rw [show s.heap[0]? = some e from hpeek, Option.some.injEq] at hfirst
        rw [hfirst]
        exact (hs.isNext hp).1
  · intro hnext
    cases hp : s.pop? with
    | none =>
        have hmem : e ∈ s.events := hnext.1
        rw [pop?_eq_none_iff.mp hp] at hmem
        exact absurd hmem (Multiset.notMem_zero e)
    | some p =>
        rw [(hs.isNext hp).1.unique hnext |>.symm]
        exact (popped hp).first

theorem Sound.answers_cancel {s : Scheduler} (hs : Sound s) (id : Nat) :
    s.agenda.Answers (.cancel id) (.found (s.cancel id).1) (s.cancel id).2.agenda := by
  rcases s.cancel_cases id with ⟨hc, hno⟩ | ⟨e, heap, hc, hid, hev, -⟩
  · rw [hc]
    refine ⟨⟨false, rfl, by simpa [agenda] using hno⟩, ?_⟩
    have hf : s.events.filter (·.id ≠ id) = s.events := Multiset.filter_eq_self.mpr hno
    simp only [agenda, Agenda.drop, hf]
  · have hids := hs.ids
    rw [hev, Multiset.map_cons, Multiset.nodup_cons] at hids
    have hf : s.events.filter (·.id ≠ id) = Heap.contents heap := by
      rw [hev, Multiset.filter_cons_of_neg _ (by simpa using hid), Multiset.filter_eq_self]
      intro f hf heq
      exact hids.1 (Multiset.mem_map.mpr ⟨f, hf, heq.trans hid.symm⟩)
    rw [hc]
    refine ⟨⟨true, rfl, ?_⟩, ?_⟩
    · have hmem : e ∈ s.events := hev ▸ Multiset.mem_cons_self e _
      exact iff_of_true rfl ⟨e, hmem, hid⟩
    · simp only [agenda, Agenda.drop, hf]
      rfl

theorem Sound.answers {s : Scheduler} (hs : Sound s) (r : Request) :
    s.agenda.Answers r (s.perform r).1 (s.perform r).2.agenda := by
  cases r with
  | schedule | scheduleAt | scheduleNow => exact ⟨rfl, s.agenda_add ..⟩
  | scheduleRecurring type interval payload =>
      exact s.answers_recurring type interval interval payload
  | scheduleRecurringAfter type delay interval payload =>
      exact s.answers_recurring type delay interval payload
  | pop =>
      cases hp : s.pop? with
      | none =>
          have hperf : s.perform .pop = (.event none, s) := by simp only [Scheduler.perform, hp]
          rw [hperf]
          exact .inl ⟨pop?_eq_none_iff.mp hp, rfl, rfl⟩
      | some p =>
          have hperf : s.perform .pop = (.event (some p.1), p.2) := by
            simp only [Scheduler.perform, hp]
          obtain ⟨hnext, htake⟩ := hs.isNext hp
          rw [hperf]
          exact .inr ⟨p.1, hnext, rfl, htake⟩
  | cancel id => exact hs.answers_cancel id
  | clear => exact ⟨rfl, rfl⟩

/-- Every queue is a heap in order, and answers every request as its agenda does. The counters are
fresh for all that is pending. -/
theorem refines_agenda {s : Scheduler} (hr : Reachable s) :
    Heap.Ordered Event.precedes s.heap ∧
      (∀ e ∈ s.agenda.pending, e.sequence < s.agenda.nextSequence ∧ e.id < s.agenda.nextId) ∧
      (∀ e, s.peek? = some e ↔ s.agenda.IsNext e) ∧
      (∀ r, s.agenda.Answers r (s.perform r).1 (s.perform r).2.agenda) ∧
      s.reset.agenda = Agenda.empty := by
  have hs := hr.sound
  refine ⟨hs.ordered, fun e he => ?_, hs.peek_iff, hs.answers, rfl⟩
  have hf := hs.future e he
  exact ⟨hf.sequence, hf.id⟩

def metronome : Scheduler :=
  ((empty.perform (.scheduleRecurring "beat" (.ofInt 2) {})).2.perform
    (.schedule "end" (.ofInt 1) {})).2

theorem metronome_refines_agenda : Reachable metronome ∧ metronome.size = 2 ∧
    ∀ e, metronome.peek? = some e ↔ metronome.agenda.IsNext e := by
  have hr : Reachable metronome := .request _ (.request _ .empty)
  exact ⟨hr, by decide +kernel, (refines_agenda hr).2.2.1⟩

end Scheduler

end RuleSim
