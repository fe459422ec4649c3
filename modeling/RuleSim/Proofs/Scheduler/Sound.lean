import Mathlib.Data.Multiset.MapFold
import Mathlib.Data.Multiset.UnionInter
import RuleSim.Proofs.Heap
import RuleSim.Proofs.Number.Time
import RuleSim.Scheduler

namespace RuleSim

open Binary64 (IsTime)

theorem Event.precedes_iff (a b : Event) :
    a.precedes b = true ↔ a.time.totalRank < b.time.totalRank ∨
      a.time.totalRank = b.time.totalRank ∧ a.sequence < b.sequence := by
  unfold precedes Binary64.totalCompare
  cases h : compare a.time.totalRank b.time.totalRank with
  | lt => simp [compare_lt_iff_lt.mp h]
  | eq => simp [compare_eq_iff_eq.mp h]
  | gt =>
      have hgt := compare_gt_iff_gt.mp h
      simp only [Bool.false_eq_true, false_iff]
      omega

theorem Event.not_precedes_iff (a b : Event) :
    a.precedes b = false ↔ b.time.totalRank < a.time.totalRank ∨
      b.time.totalRank = a.time.totalRank ∧ b.sequence ≤ a.sequence := by
  rw [← Bool.not_eq_true, precedes_iff]
  omega

theorem Event.precedes_strict : Heap.Strict Event.precedes where
  asymm := by
    intro a b h
    rw [Event.precedes_iff] at h
    rw [Event.not_precedes_iff]
    omega
  trans := by
    intro a b c hab hbc
    rw [Event.not_precedes_iff] at hab hbc ⊢
    omega

def Event.again (e : Event) (sequence : Nat) : Multiset Event :=
  match e.interval with
  | none => 0
  | some interval => {{ e with time := e.time + interval, sequence }}

theorem Event.again_of_once {e : Event} (hi : e.interval = none) (sequence : Nat) :
    e.again sequence = 0 := by
  rw [again, hi]

theorem Event.again_of_recurring {e : Event} {interval : Binary64}
    (hi : e.interval = some interval) (sequence : Nat) :
    e.again sequence = {{ e with time := e.time + interval, sequence }} := by
  rw [again, hi]

theorem Event.mem_again {e f : Event} {sequence : Nat} :
    f ∈ e.again sequence ↔
      ∃ interval ∈ e.interval, f = { e with time := e.time + interval, sequence } := by
  cases hi : e.interval with
  | none => simp [again_of_once hi]
  | some interval => simp [again_of_recurring hi, hi]

namespace Scheduler

inductive Request where
  | schedule (type : String) (delay : Binary64) (payload : Payload)
  | scheduleAt (type : String) (time : Binary64) (payload : Payload)
  | scheduleNow (type : String) (payload : Payload)
  | scheduleRecurring (type : String) (interval : Binary64) (payload : Payload)
  | scheduleRecurringAfter (type : String) (delay interval : Binary64) (payload : Payload)
  | pop
  | cancel (id : Nat)
  | clear

inductive Answer where
  | id (n : Nat)
  | refused (e : Error)
  | event (e : Option Event)
  | found (b : Bool)
  | done

def Answer.event? : Answer → Option Event
  | event e => e
  | _ => none

def perform (s : Scheduler) : Request → Answer × Scheduler
  | .schedule type delay payload =>
    let (id, s) := s.schedule type delay payload
    (.id id, s)
  | .scheduleAt type time payload =>
    let (id, s) := s.scheduleAt type time payload
    (.id id, s)
  | .scheduleNow type payload =>
    let (id, s) := s.scheduleNow type payload
    (.id id, s)
  | .scheduleRecurring type interval payload =>
    match s.scheduleRecurring type interval payload with
    | .ok (id, s) => (.id id, s)
    | .error e => (.refused e, s)
  | .scheduleRecurringAfter type delay interval payload =>
    match s.scheduleRecurringAfter type delay interval payload with
    | .ok (id, s) => (.id id, s)
    | .error e => (.refused e, s)
  | .pop =>
    match s.pop? with
    | some (e, s) => (.event (some e), s)
    | none => (.event none, s)
  | .cancel id =>
    let (found, s) := s.cancel id
    (.found found, s)
  | .clear => (.done, s.clear)

inductive Reachable : Scheduler → Prop
  | empty : Reachable empty
  | request {s} (r : Request) : Reachable s → Reachable (s.perform r).2
  | reset {s} : Reachable s → Reachable s.reset

def events (s : Scheduler) : Multiset Event := Heap.contents s.heap

theorem mem_events {s : Scheduler} {e : Event} : e ∈ s.events ↔ e ∈ s.heap := Heap.mem_contents

theorem events_enqueue (s : Scheduler) (e : Event) :
    (s.enqueue e).events = { e with sequence := s.nextSequence } ::ₘ s.events :=
  Heap.contents_push _

theorem events_add (s : Scheduler) (type : String) (time : Binary64) (payload : Payload)
    (interval : Option Binary64) :
    (s.add type time payload interval).2.events =
      ⟨s.nextId, type, time, payload, s.nextSequence, interval⟩ ::ₘ s.events :=
  Heap.contents_push _

theorem pop?_eq_none_iff {s : Scheduler} : s.pop? = none ↔ s.events = 0 := by
  have hpop : Heap.pop? Event.precedes s.heap = none ↔ s.events = 0 := Heap.pop?_eq_none_iff
  rw [← hpop, pop?]
  cases Heap.pop? Event.precedes s.heap with
  | none => simp
  | some p =>
      simp only [reduceCtorEq, iff_false]
      cases p.1.interval <;> simp

/-- The first event leaves the heap and the clock moves on to it. If it is a recurring one, it is
queued again. -/
theorem pop?_cases {s t : Scheduler} {e : Event} (hp : s.pop? = some (e, t)) :
    ∃ heap u, Heap.pop? Event.precedes s.heap = some (e, heap) ∧
      u = { s with heap, now := if s.now.numLt e.time then e.time else s.now } ∧
      (e.interval = none ∧ t = u ∨ ∃ interval, e.interval = some interval ∧
        t = u.enqueue { e with time := e.time + interval }) := by
  rw [pop?] at hp
  cases hh : Heap.pop? Event.precedes s.heap with
  | none => simp [hh] at hp
  | some p =>
      obtain ⟨f, heap⟩ := p
      simp only [hh] at hp
      cases hi : f.interval with
      | none =>
          simp only [hi, Option.some.injEq, Prod.mk.injEq] at hp
          obtain ⟨rfl, rfl⟩ := hp
          exact ⟨heap, _, rfl, rfl, .inl ⟨hi, rfl⟩⟩
      | some interval =>
          simp only [hi, Option.some.injEq, Prod.mk.injEq] at hp
          obtain ⟨rfl, rfl⟩ := hp
          exact ⟨heap, _, rfl, rfl, .inr ⟨interval, hi, by rw [hi]⟩⟩

/-- The first event is taken out, the others stay, and a recurring event comes back. -/
structure Popped (s : Scheduler) (e : Event) (t : Scheduler) : Prop where
  first : s.heap[0]? = some e
  rest : ∃ rest, s.events = e ::ₘ rest ∧ t.events = e.again s.nextSequence + rest
  now : t.now = if s.now.numLt e.time then e.time else s.now
  nextId : t.nextId = s.nextId
  nextSequence : t.nextSequence = if e.isRecurring then s.nextSequence + 1 else s.nextSequence

theorem popped {s t : Scheduler} {e : Event} (hp : s.pop? = some (e, t)) : Popped s e t := by
  obtain ⟨heap, u, hh, rfl, ⟨hi, rfl⟩ | ⟨interval, hi, rfl⟩⟩ := pop?_cases hp
  · obtain ⟨hfirst, hrest⟩ := Heap.pop?_contents hh
    refine ⟨hfirst, ⟨Heap.contents heap, hrest, ?_⟩, rfl, rfl, ?_⟩
    · rw [Event.again_of_once hi, Multiset.zero_add]
      rfl
    · simp [Event.isRecurring, hi]
  · obtain ⟨hfirst, hrest⟩ := Heap.pop?_contents hh
    refine ⟨hfirst, ⟨Heap.contents heap, hrest, ?_⟩, rfl, rfl, ?_⟩
    · rw [events_enqueue, Event.again_of_recurring hi, Multiset.singleton_add]
      rfl
    · simp [Event.isRecurring, hi, enqueue]

theorem Popped.mem {s t : Scheduler} {e : Event} (hp : Popped s e t) : e ∈ s.events := by
  obtain ⟨rest, hev, -⟩ := hp.rest
  rw [hev]
  exact Multiset.mem_cons_self e rest

/-- Either nothing has the identifier, or one event that has it is removed. -/
theorem cancel_cases (s : Scheduler) (id : Nat) :
    (s.cancel id = (false, s) ∧ ∀ e ∈ s.events, e.id ≠ id) ∨
      ∃ e heap, s.cancel id = (true, { s with heap }) ∧ e.id = id ∧
        s.events = e ::ₘ Heap.contents heap ∧
        (Heap.Ordered Event.precedes s.heap → Heap.Ordered Event.precedes heap) := by
  rw [cancel]
  cases hi : s.indexOf? id with
  | none =>
      refine .inl ⟨rfl, fun e he heq => ?_⟩
      rw [indexOf?, Array.findFinIdx?_eq_none_iff] at hi
      exact hi e (mem_events.mp he) (by simpa using heq)
  | some i =>
      rw [indexOf?, Array.findFinIdx?_eq_some_iff] at hi
      refine .inr ⟨s.heap[i], _, rfl, by simpa using hi.1, ?_, fun ho => ?_⟩
      · exact (Heap.contents_removeAt i.isLt).symm
      · exact Heap.removeAt_ordered Event.precedes_strict ho i.isLt

inductive Due (now : Binary64) : Binary64 → Prop
  | after (delay : Binary64) : Due now (now + delayOf delay)
  | later {time : Binary64} (h : now.numLt time = true) : Due now time
  | present : Due now now

theorem delayOf_isTime (x : Binary64) : IsTime (delayOf x) := by
  unfold delayOf
  split
  · next h => exact Binary64.zero_isTime.of_numLt h
  · exact Binary64.zero_isTime

theorem Due.isTime {now time : Binary64} (hd : Due now time) (hn : IsTime now) :
    IsTime time ∧ now.magnitude ≤ time.magnitude := by
  cases hd with
  | after delay =>
      obtain ⟨ht, hl, -⟩ := hn.add (delayOf_isTime delay)
      exact ⟨ht, hl⟩
  | later h =>
      have ht := hn.of_numLt h
      exact ⟨ht, ((hn.numLt_iff ht).mp h).le⟩
  | present => exact ⟨hn, le_rfl⟩

theorem validInterval_isTime {x : Binary64} (h : validInterval x = true) : IsTime x :=
  Binary64.zero_isTime.of_numLt (Bool.and_eq_true_iff.mp h).2

inductive Move (s : Scheduler) : Answer → Scheduler → Prop
  | add (type : String) {time : Binary64} (payload : Payload) {interval : Option Binary64}
      (hd : Due s.now time) (hi : ∀ x ∈ interval, validInterval x = true) :
      Move s (.id s.nextId) (s.add type time payload interval).2
  | refuse (e : Error) : Move s (.refused e) s
  | dry (h : s.pop? = none) : Move s (.event none) s
  | pop {e : Event} {t : Scheduler} (h : s.pop? = some (e, t)) : Move s (.event (some e)) t
  | cancel (id : Nat) : Move s (.found (s.cancel id).1) (s.cancel id).2
  | clear : Move s .done s.clear

theorem scheduleRecurringAfter_cases (s : Scheduler) (type : String) (delay interval : Binary64)
    (payload : Payload) :
    (validInterval interval = true ∧ s.scheduleRecurringAfter type delay interval payload =
        .ok (s.add type (s.now + delayOf delay) payload (some interval))) ∨
      validInterval interval = false ∧
        ∃ e, s.scheduleRecurringAfter type delay interval payload = .error e := by
  unfold scheduleRecurringAfter
  cases h : validInterval interval with
  | true => exact .inl ⟨rfl, rfl⟩
  | false => exact .inr ⟨rfl, _, rfl⟩

theorem perform_move (s : Scheduler) (r : Request) : Move s (s.perform r).1 (s.perform r).2 := by
  cases r with
  | schedule type delay payload => exact .add type payload (.after delay) (by simp)
  | scheduleAt type time payload =>
      by_cases h : s.now.numLt time = true
      · simp only [perform, scheduleAt, h, if_true]
        exact .add type payload (.later h) (by simp)
      · simp only [perform, scheduleAt, if_neg h]
        exact .add type payload .present (by simp)
  | scheduleNow type payload => exact .add type payload .present (by simp)
  | scheduleRecurring type interval payload =>
      rcases s.scheduleRecurringAfter_cases type interval interval payload with ⟨hv, h⟩ | ⟨-, e, h⟩
      · simp only [perform, scheduleRecurring, h]
        exact .add type payload (.after interval) (by simpa using hv)
      · simp only [perform, scheduleRecurring, h]
        exact .refuse e
  | scheduleRecurringAfter type delay interval payload =>
      rcases s.scheduleRecurringAfter_cases type delay interval payload with ⟨hv, h⟩ | ⟨-, e, h⟩
      · simp only [perform, h]
        exact .add type payload (.after delay) (by simpa using hv)
      · simp only [perform, h]
        exact .refuse e
  | pop =>
      cases h : s.pop? with
      | none =>
          simp only [perform, h]
          exact .dry h
      | some p =>
          simp only [perform, h]
          exact .pop h
  | cancel id => exact .cancel id
  | clear => exact .clear

/-- A pending event lies in the future of its queue. -/
structure Future (s : Scheduler) (e : Event) : Prop where
  isTime : IsTime e.time
  not_past : s.now.magnitude ≤ e.time.magnitude
  sequence : e.sequence < s.nextSequence
  id : e.id < s.nextId
  interval : ∀ x ∈ e.interval, IsTime x

structure Sound (s : Scheduler) : Prop where
  now : IsTime s.now
  future : ∀ e ∈ s.events, Future s e
  sequences : (s.events.map (·.sequence)).Nodup
  ids : (s.events.map (·.id)).Nodup
  ordered : Heap.Ordered Event.precedes s.heap

theorem empty_sound : Sound empty := by
  have h0 : empty.events = 0 := rfl
  refine ⟨Binary64.zero_isTime, by simp [h0], by simp [h0], by simp [h0], ?_⟩
  intro i hi
  exact absurd hi (Nat.not_lt_zero i)

theorem Sound.add {s : Scheduler} (hs : Sound s) (type : String) {time : Binary64}
    (payload : Payload) {interval : Option Binary64} (hd : Due s.now time)
    (hi : ∀ x ∈ interval, validInterval x = true) :
    Sound (s.add type time payload interval).2 := by
  obtain ⟨ht, hle⟩ := hd.isTime hs.now
  have hev := s.events_add type time payload interval
  refine ⟨hs.now, ?_, ?_, ?_, Heap.push_ordered Event.precedes_strict hs.ordered _⟩
  · rw [hev]
    intro e he
    rcases Multiset.mem_cons.mp he with rfl | he
    · exact ⟨ht, hle, Nat.lt_succ_self _, Nat.lt_succ_self _,
        fun x hx => validInterval_isTime (hi x hx)⟩
    · have hf := hs.future e he
      exact ⟨hf.isTime, hf.not_past, Nat.lt_succ_of_lt hf.sequence, Nat.lt_succ_of_lt hf.id,
        hf.interval⟩
  · rw [hev, Multiset.map_cons, Multiset.nodup_cons]
    refine ⟨fun hm => ?_, hs.sequences⟩
    obtain ⟨e, he, heq⟩ := Multiset.mem_map.mp hm
    exact absurd heq (hs.future e he).sequence.ne
  · rw [hev, Multiset.map_cons, Multiset.nodup_cons]
    refine ⟨fun hm => ?_, hs.ids⟩
    obtain ⟨e, he, heq⟩ := Multiset.mem_map.mp hm
    exact absurd heq (hs.future e he).id.ne

theorem Sound.drop {s : Scheduler} (hs : Sound s) {heap : Array Event}
    (hle : Heap.contents heap ≤ s.events) (ho : Heap.Ordered Event.precedes heap) :
    Sound { s with heap } where
  now := hs.now
  future e he := by
    have hf := hs.future e (Multiset.mem_of_le hle he)
    exact ⟨hf.isTime, hf.not_past, hf.sequence, hf.id, hf.interval⟩
  sequences := Multiset.nodup_of_le (Multiset.map_le_map hle) hs.sequences
  ids := Multiset.nodup_of_le (Multiset.map_le_map hle) hs.ids
  ordered := ho

theorem Sound.cancel {s : Scheduler} (hs : Sound s) (id : Nat) : Sound (s.cancel id).2 := by
  rcases s.cancel_cases id with ⟨hc, -⟩ | ⟨e, heap, hc, -, hev, ho⟩
  · rw [hc]
    exact hs
  · rw [hc]
    exact hs.drop (hev ▸ Multiset.le_cons_self _ _) (ho hs.ordered)

theorem Sound.clear {s : Scheduler} (hs : Sound s) : Sound s.clear :=
  hs.drop (Multiset.zero_le _) fun i hi => absurd hi (Nat.not_lt_zero i)

theorem pop?_ordered {s t : Scheduler} {e : Event} (hp : s.pop? = some (e, t))
    (ho : Heap.Ordered Event.precedes s.heap) : Heap.Ordered Event.precedes t.heap := by
  obtain ⟨heap, u, hh, rfl, ⟨-, rfl⟩ | ⟨interval, -, rfl⟩⟩ := pop?_cases hp
  · exact Heap.pop?_ordered Event.precedes_strict ho hh
  · exact Heap.push_ordered Event.precedes_strict
      (Heap.pop?_ordered Event.precedes_strict ho hh) _

theorem Sound.pop_future {s t : Scheduler} {e : Event} (hs : Sound s)
    (hp : s.pop? = some (e, t)) : Future s e := hs.future e (popped hp).mem

theorem Sound.pop_least {s t : Scheduler} {e : Event} (hs : Sound s) (hp : s.pop? = some (e, t)) :
    ∀ f ∈ s.events.erase e, e.precedes f = true := by
  intro f hf
  have hpd := popped hp
  obtain ⟨rest, hev, -⟩ := hpd.rest
  have hseq := hs.sequences
  rw [hev, Multiset.map_cons, Multiset.nodup_cons] at hseq
  rw [hev, Multiset.erase_cons_head] at hf
  have hne : f.sequence ≠ e.sequence := fun heq =>
    hseq.1 (heq ▸ Multiset.mem_map_of_mem _ hf)
  obtain ⟨h0, he⟩ := Array.getElem?_eq_some_iff.mp hpd.first
  have hmem : f ∈ s.events := hev ▸ Multiset.mem_cons_of_mem hf
  have hfirst := Heap.root_first Event.precedes_strict hs.ordered h0 hmem
  rw [he, Event.not_precedes_iff] at hfirst
  rw [Event.precedes_iff]
  omega

theorem Sound.pop_now {s t : Scheduler} {e : Event} (hs : Sound s) (hp : s.pop? = some (e, t)) :
    t.now = e.time := by
  have hf := hs.pop_future hp
  rw [(popped hp).now]
  split
  · rfl
  · next h =>
      rw [hs.now.numLt_iff hf.isTime] at h
      exact hs.now.eq_of_magnitude hf.isTime (le_antisymm hf.not_past (Nat.not_lt.mp h))

theorem Popped.nextSequence_le {s t : Scheduler} {e : Event} (hp : Popped s e t) :
    s.nextSequence ≤ t.nextSequence := by
  rw [hp.nextSequence]
  split <;> omega

/-- What stays in the queue is not before the event that is taken out. -/
theorem Sound.future_rest {s t : Scheduler} {e : Event} (hs : Sound s)
    (hp : s.pop? = some (e, t)) : ∀ f ∈ s.events.erase e, Future t f := by
  intro f hf
  have hpd := popped hp
  have hff := hs.future f (Multiset.mem_of_mem_erase hf)
  have hpre := hs.pop_least hp f hf
  rw [Event.precedes_iff, (hs.pop_future hp).isTime.totalRank_eq, hff.isTime.totalRank_eq] at hpre
  refine ⟨hff.isTime, ?_, hff.sequence.trans_le hpd.nextSequence_le, hpd.nextId ▸ hff.id,
    hff.interval⟩
  rw [hs.pop_now hp]
  omega

/-- A recurring event comes back behind itself. -/
theorem Sound.again {s t : Scheduler} {e : Event} (hs : Sound s) (hp : s.pop? = some (e, t)) :
    ∀ f ∈ e.again s.nextSequence, IsTime f.time ∧ e.time.magnitude ≤ f.time.magnitude ∧
      f.sequence = s.nextSequence := by
  have hfe := hs.pop_future hp
  intro f hf
  obtain ⟨interval, hi, rfl⟩ := Event.mem_again.mp hf
  obtain ⟨ht, hle, -⟩ := hfe.isTime.add (hfe.interval interval hi)
  exact ⟨ht, hle, rfl⟩

theorem Sound.future_again {s t : Scheduler} {e : Event} (hs : Sound s)
    (hp : s.pop? = some (e, t)) : ∀ f ∈ e.again s.nextSequence, Future t f := by
  intro f hf
  have hpd := popped hp
  have hfe := hs.pop_future hp
  obtain ⟨ht, hle, -⟩ := hs.again hp f hf
  obtain ⟨interval, hi, rfl⟩ := Event.mem_again.mp hf
  refine ⟨ht, ?_, ?_, hpd.nextId ▸ hfe.id, hfe.interval⟩
  · rwa [hs.pop_now hp]
  · have hrec : e.isRecurring = true := by
      rw [Event.isRecurring, hi]
      rfl
    rw [hpd.nextSequence, if_pos hrec]
    exact Nat.lt_succ_self _

theorem Sound.pop {s t : Scheduler} {e : Event} (hs : Sound s) (hp : s.pop? = some (e, t)) :
    Sound t := by
  obtain ⟨rest, hev, hev'⟩ := (popped hp).rest
  have hnow : IsTime t.now := hs.pop_now hp ▸ (hs.pop_future hp).isTime
  have hfuture : ∀ f ∈ t.events, Future t f := by
    rw [hev']
    intro f hf
    rcases Multiset.mem_add.mp hf with hf | hf
    · exact hs.future_again hp f hf
    · exact hs.future_rest hp f (by rwa [hev, Multiset.erase_cons_head])
  have hseqs := hs.sequences
  have hids := hs.ids
  rw [hev, Multiset.map_cons, Multiset.nodup_cons] at hseqs hids
  have hordered := pop?_ordered hp hs.ordered
  cases hi : e.interval with
  | none =>
      rw [Event.again_of_once hi, Multiset.zero_add] at hev'
      exact ⟨hnow, hfuture, hev' ▸ hseqs.2, hev' ▸ hids.2, hordered⟩
  | some interval =>
      rw [Event.again_of_recurring hi, Multiset.singleton_add] at hev'
      refine ⟨hnow, hfuture, ?_, ?_, hordered⟩
      · rw [hev', Multiset.map_cons, Multiset.nodup_cons]
        refine ⟨fun hm => ?_, hseqs.2⟩
        obtain ⟨f, hf, heq⟩ := Multiset.mem_map.mp hm
        exact absurd heq (hs.future f (hev ▸ Multiset.mem_cons_of_mem hf)).sequence.ne
      · rw [hev', Multiset.map_cons, Multiset.nodup_cons]
        exact hids

/-- A property lasts that new events have and that hangs neither on the time of an event nor on its
sequence number. -/
theorem Move.lasts {s t : Scheduler} {a : Answer} {p : Event → Prop} (hm : Move s a t)
    (hnew : ∀ type time payload interval, (∀ x ∈ interval, validInterval x = true) →
      p ⟨s.nextId, type, time, payload, s.nextSequence, interval⟩)
    (hagain : ∀ (e : Event) (time : Binary64) (sequence : Nat), p e → p { e with time, sequence })
    (h : ∀ e ∈ s.events, p e) : ∀ e ∈ t.events, p e := by
  cases hm with
  | add type payload hd hi =>
      rw [events_add]
      exact Multiset.forall_mem_cons.mpr ⟨hnew _ _ _ _ hi, h⟩
  | refuse | dry => exact h
  | pop hp =>
      obtain ⟨rest, hev, hev'⟩ := (popped hp).rest
      rw [hev']
      intro f hf
      rcases Multiset.mem_add.mp hf with hf | hf
      · obtain ⟨interval, -, rfl⟩ := Event.mem_again.mp hf
        exact hagain _ _ _ (h _ (popped hp).mem)
      · exact h f (hev ▸ Multiset.mem_cons_of_mem hf)
  | cancel id =>
      rcases s.cancel_cases id with ⟨hc, -⟩ | ⟨e, heap, hc, -, hev, -⟩
      · rw [hc]
        exact h
      · rw [hc]
        exact fun f hf => h f (hev ▸ Multiset.mem_cons_of_mem hf)
  | clear => exact fun f hf => absurd hf (Multiset.notMem_zero f)

theorem Move.sound {s t : Scheduler} {a : Answer} (hm : Move s a t) (hs : Sound s) : Sound t := by
  cases hm with
  | add type payload hd hi => exact hs.add type payload hd hi
  | refuse | dry => exact hs
  | pop h => exact hs.pop h
  | cancel id => exact hs.cancel id
  | clear => exact hs.clear

theorem Sound.perform {s : Scheduler} (hs : Sound s) (r : Request) : Sound (s.perform r).2 :=
  (perform_move s r).sound hs

theorem Reachable.sound {s : Scheduler} (hr : Reachable s) : Sound s := by
  induction hr with
  | empty => exact empty_sound
  | request r _ ih => exact ih.perform r
  | reset => exact empty_sound

end Scheduler

end RuleSim
