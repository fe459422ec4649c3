import RuleSim.Proofs.Number.Rounding
import RuleSim.Proofs.Scheduler.Delivery

namespace RuleSim.Scheduler

variable {s t : Scheduler}

def Regular (s : Scheduler) : Prop := ∀ e ∈ s.events, ∀ x ∈ e.interval, validInterval x = true

theorem Move.regular {a : Answer} (hm : Move s a t) (h : Regular s) : Regular t :=
  hm.lasts (fun _ _ _ _ hi => hi) (fun _ _ _ he => he) h

theorem Reachable.regular (hr : Reachable s) : Regular s := by
  induction hr with
  | empty | reset => exact fun f hf => absurd hf (Multiset.notMem_zero f)
  | request r _ ih => exact (perform_move _ r).regular ih

theorem Reachable.interval (hr : Reachable s) {e : Event} (hp : s.pop? = some (e, t))
    {interval : Binary64} (hi : e.interval = some interval) :
    Binary64.IsTime interval ∧ interval.isFinite = true ∧ 0 < interval.magnitude := by
  have hvalid := hr.regular e (popped hp).mem interval hi
  have htime := validInterval_isTime hvalid
  obtain ⟨hfin, hpos⟩ := Bool.and_eq_true_iff.mp hvalid
  rw [Binary64.zero_isTime.numLt_iff htime] at hpos
  exact ⟨htime, hfin, hpos⟩

/-- The event is in the queue again, once, an interval later. -/
theorem Sound.recurs (hs : Sound s) {e : Event} (hp : s.pop? = some (e, t)) {interval : Binary64}
    (hi : e.interval = some interval) :
    ∃ f, t.events.filter (·.id = e.id) = {f} ∧ f.type = e.type ∧ f.payload = e.payload ∧
      f.interval = some interval ∧ f.time = e.time + interval := by
  obtain ⟨rest, hev, hev'⟩ := (popped hp).rest
  have hids := hs.ids
  rw [hev, Multiset.map_cons, Multiset.nodup_cons] at hids
  have hrest : rest.filter (·.id = e.id) = 0 := by
    rw [Multiset.filter_eq_nil]
    exact fun f hf heq => hids.1 (heq ▸ Multiset.mem_map_of_mem _ hf)
  refine ⟨{ e with time := e.time + interval, sequence := s.nextSequence, interval }, ?_,
    rfl, rfl, rfl, rfl⟩
  rw [hev', Event.again_of_recurring hi, hi, Multiset.filter_add, hrest, Multiset.add_zero,
    Multiset.filter_eq_self]
  intro f hf
  obtain rfl := Multiset.mem_singleton.mp hf
  rfl

theorem mem_of_filter_id {id : Nat} {f : Event} (h : s.events.filter (·.id = id) = {f}) :
    f ∈ s.events ∧ f.id = id := by
  have hf : f ∈ s.events.filter (·.id = id) := by
    rw [h]
    exact Multiset.mem_singleton_self f
  exact Multiset.mem_filter.mp hf

/-- A recurring event is pending under the identifier for a time that its interval does not leave.
-/
def Holds (s : Scheduler) (id : Nat) (time interval : Binary64) : Prop :=
  ∃ f ∈ s.events, f.id = id ∧ f.time = time ∧ f.interval = some interval

theorem Sound.holds_perform {id : Nat} {time interval : Binary64} (hs : Sound s)
    (h : Holds s id time interval) (hstay : time + interval = time) {r : Request}
    (hr : r.withdraws id = false) : Holds (s.perform r).2 id time interval := by
  obtain ⟨f, hf, hid, htime, hinterval⟩ := h
  rcases perform_cases s r with
    rfl | ⟨k, rfl⟩ | rfl | ⟨-, ⟨e, he⟩ | ⟨type, at', payload, i, he, -⟩⟩
  · rw [Scheduler.perform]
    cases hp : s.pop? with
    | none => exact ⟨f, hf, hid, htime, hinterval⟩
    | some p =>
        obtain ⟨rest, hev, hev'⟩ := (popped hp).rest
        rcases Multiset.mem_cons.mp (hev ▸ hf) with rfl | hf
        · obtain ⟨g, hback, -, -, hgi, hgt⟩ := hs.recurs hp hinterval
          obtain ⟨hg, hgid⟩ := mem_of_filter_id hback
          rw [htime, hstay] at hgt
          exact ⟨g, hg, hgid.trans hid, hgt, hgi⟩
        · refine ⟨f, ?_, hid, htime, hinterval⟩
          rw [hev']
          exact Multiset.mem_add.mpr (.inr hf)
  · have hne : f.id ≠ k := fun heq => by simp [Request.withdraws, ← heq, hid] at hr
    refine ⟨f, ?_, hid, htime, hinterval⟩
    rw [Scheduler.perform, hs.cancel_events k]
    exact Multiset.mem_filter.mpr ⟨hf, hne⟩
  · cases hr
  · rw [he]
    exact ⟨f, hf, hid, htime, hinterval⟩
  · refine ⟨f, ?_, hid, htime, hinterval⟩
    rw [he, events_add]
    exact Multiset.mem_cons_of_mem hf

theorem Sound.holds_after {id : Nat} {time interval : Binary64} (hs : Sound s)
    (h : Holds s id time interval) (hstay : time + interval = time) {rs : List Request}
    (hrs : rs.any (·.withdraws id) = false) : Holds (s.after rs) id time interval := by
  induction rs generalizing s with
  | nil => exact h
  | cons r rs ih =>
      rw [List.any_cons, Bool.or_eq_false_iff] at hrs
      exact ih (hs.perform r) (hs.holds_perform h hstay hrs.1) hrs.2

/-- The clock cannot pass a pending event. -/
theorem Sound.now_held {id : Nat} {interval : Binary64} (hs : Sound s)
    (h : Holds s id s.now interval) (hstay : s.now + interval = s.now) {rs : List Request}
    (hrs : rs.any (·.withdraws id) = false) : (s.after rs).now = s.now := by
  obtain ⟨f, hf, -, htime, -⟩ := hs.holds_after h hstay hrs
  have hpast := ((hs.after rs).future f hf).not_past
  rw [htime] at hpast
  exact (hs.after rs).now.eq_of_magnitude hs.now (le_antisymm hpast (hs.now_le_after rs))

/-- A recurring event that is taken out has a positive and finite interval, and it is in the queue
again, once and an interval later. The sum is later than the event just if the interval is more than
half the way from the time of the event to the next number (a tie goes to the even one). Otherwise
the event comes back at the same time, and the clock stands still until the event is withdrawn,
whatever else is requested. -/
theorem recurs_later_iff {e : Event} {interval : Binary64} (hr : Reachable s)
    (hp : s.pop? = some (e, t)) (hi : e.interval = some interval) :
    interval.isFinite = true ∧ Binary64.zero.numLt interval = true ∧
      ∃ f, t.events.filter (·.id = e.id) = {f} ∧ f.type = e.type ∧ f.payload = e.payload ∧
        f.interval = some interval ∧ f.time = e.time + interval ∧
        (e.time.numLt f.time = true ↔ e.time.Advances interval) ∧
        (¬ e.time.Advances interval → f.time = e.time ∧
          ∀ rs : List Request, rs.any (·.withdraws e.id) = false → (t.after rs).now = e.time) := by
  have hs := hr.sound
  obtain ⟨htime, hfin, hpos⟩ := hr.interval hp hi
  obtain ⟨hlater, hsame⟩ := (hs.pop_future hp).isTime.add_advances htime hfin hpos
  obtain ⟨f, hback, htype, hpayload, hfi, hft⟩ := hs.recurs hp hi
  obtain ⟨hmem, hid⟩ := mem_of_filter_id hback
  rw [← hft] at hlater hsame
  refine ⟨hfin, (Binary64.zero_isTime.numLt_iff htime).mpr hpos, f, hback, htype, hpayload, hfi, hft,
    hlater, fun hstay => ⟨hsame hstay, fun rs hrs => ?_⟩⟩
  have hnow := hs.pop_now hp
  have hholds : Holds t e.id t.now interval :=
    ⟨f, hmem, hid, (hsame hstay).trans hnow.symm, hfi⟩
  rw [(hs.pop hp).now_held hholds (by rw [hnow, ← hft, hsame hstay]) hrs, hnow]

/-- An event comes back later as long as its time is less than 2 ^ 53 intervals. -/
theorem recurs_later_of_lt {e f : Event} {interval : Binary64} (hr : Reachable s)
    (hp : s.pop? = some (e, t)) (hi : e.interval = some interval)
    (hf : f ∈ t.events) (hid : f.id = e.id) (hfin : e.time.isFinite = true)
    (h : Binary64.units e.time.magnitude < 2 ^ 53 * Binary64.units interval.magnitude) :
    e.time.numLt f.time = true := by
  have hs := hr.sound
  obtain ⟨htime, hifin, hpos⟩ := hr.interval hp hi
  obtain ⟨g, hback, -, -, -, hgt⟩ := hs.recurs hp hi
  have hmem : f ∈ t.events.filter (·.id = e.id) := Multiset.mem_filter.mpr ⟨hf, hid⟩
  obtain rfl := Multiset.mem_singleton.mp (hback ▸ hmem)
  rw [hgt, ((hs.pop_future hp).isTime.add_advances htime hifin hpos).1]
  exact Binary64.advances_of_lt hfin hpos h

/-- A recurring event for every 2, which is due. -/
theorem beat_recurs_later : ∃ e t f, (empty.after [.beat]).pop? = some (e, t) ∧
    e.interval = some (.ofInt 2) ∧ t.events.filter (·.id = e.id) = {f} ∧
      e.time.numLt f.time = true := by
  have hpop : ((empty.after [.beat]).pop?.map fun p => (p.1.time, p.1.interval)) =
      some (.ofInt 2, some (.ofInt 2)) := by decide +kernel
  obtain ⟨⟨e, t⟩, hp, heq⟩ := Option.map_eq_some_iff.mp hpop
  obtain ⟨htime, hi⟩ := Prod.mk.inj heq
  obtain ⟨-, -, f, hf, -, -, -, -, hlater, -⟩ :=
    recurs_later_iff (.request .beat .empty) hp hi
  have hadvances : (Binary64.ofInt 2).Advances (.ofInt 2) := by decide +kernel
  exact ⟨e, t, f, hp, hi, hf, hlater.mpr (by rw [htime]; exact hadvances)⟩

def Request.farBeat : Request := .scheduleRecurringAfter "beat" (.ofInt (2 ^ 53)) (.ofInt 1) {}

/-- From 2 ^ 53 on not every whole number is one, and 2 ^ 53 + 1 is rounded down. -/
theorem far_beat_stays : ¬ ∀ (s t : Scheduler) (e f : Event), Reachable s →
    s.pop? = some (e, t) → e.isRecurring = true → f ∈ t.events → f.id = e.id →
      e.time.numLt f.time = true := by
  intro h
  have hpop : ((empty.after [.farBeat]).pop?.map fun p => (p.1.time, p.1.interval)) =
      some (.ofInt (2 ^ 53), some (.ofInt 1)) := by decide +kernel
  obtain ⟨⟨e, t⟩, hp, heq⟩ := Option.map_eq_some_iff.mp hpop
  obtain ⟨htime, hi⟩ := Prod.mk.inj heq
  have hr : Reachable (empty.after [.farBeat]) := .request .farBeat .empty
  obtain ⟨f, hback, -, -, -, hft⟩ := hr.sound.recurs hp hi
  obtain ⟨hmem, hid⟩ := mem_of_filter_id hback
  have hlt := h _ t e f hr hp (by rw [Event.isRecurring, hi]; rfl) hmem hid
  dsimp only at htime
  rw [hft, htime] at hlt
  exact absurd hlt (by decide +kernel)

end RuleSim.Scheduler
