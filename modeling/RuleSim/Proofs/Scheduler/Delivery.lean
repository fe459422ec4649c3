import Mathlib.Data.Multiset.Filter
import RuleSim.Proofs.Scheduler.Agenda
import RuleSim.Proofs.Scheduler.Chronology

namespace RuleSim.Scheduler

def Request.isRecurring : Request → Bool
  | .scheduleRecurring .. | .scheduleRecurringAfter .. => true
  | _ => false

def Request.withdraws (id : Nat) : Request → Bool
  | .cancel k => k = id
  | .clear => true
  | _ => false

/-- How many events are pending under an identifier. -/
def pendingWith (s : Scheduler) (id : Nat) : Nat := s.events.countP (·.id = id)

def takenWith (s : Scheduler) (rs : List Request) (id : Nat) : Nat :=
  (s.taken rs).countP (·.id = id)

/-- How many pending events with the identifier a run cancels or clears away. -/
def withdrawnWith (s : Scheduler) (id : Nat) : List Request → Nat
  | [] => 0
  | r :: rs =>
    (if r.withdraws id then s.pendingWith id else 0) + (s.perform r).2.withdrawnWith id rs

variable {s t : Scheduler} {id : Nat}

/-- A request other than these three adds an event under a new identifier or is refused. -/
theorem perform_cases (s : Scheduler) (r : Request) :
    r = .pop ∨ (∃ k, r = .cancel k) ∨ r = .clear ∨
      (∀ id, r.withdraws id = false) ∧ ((∃ e, s.perform r = (.refused e, s)) ∨
        ∃ type time payload interval, s.perform r =
          (.id s.nextId, (s.add type time payload interval).2) ∧
          interval.isSome = r.isRecurring) := by
  have hrecur (type : String) (delay interval : Binary64) (payload : Payload) :
      (∃ e, s.perform (.scheduleRecurringAfter type delay interval payload) = (.refused e, s)) ∨
        s.perform (.scheduleRecurringAfter type delay interval payload) =
          (.id s.nextId, (s.add type (s.now + delayOf delay) payload (some interval)).2) := by
    rcases s.scheduleRecurringAfter_cases type delay interval payload with ⟨-, h⟩ | ⟨-, e, h⟩
    · simp only [perform, h]
      exact .inr rfl
    · simp only [perform, h]
      exact .inl ⟨e, rfl⟩
  cases r with
  | pop => exact .inl rfl
  | cancel k => exact .inr (.inl ⟨k, rfl⟩)
  | clear => exact .inr (.inr (.inl rfl))
  | schedule | scheduleAt | scheduleNow =>
      exact .inr (.inr (.inr ⟨fun _ => rfl, .inr ⟨_, _, _, none, rfl, rfl⟩⟩))
  | scheduleRecurring type interval payload =>
      refine .inr (.inr (.inr ⟨fun _ => rfl, ?_⟩))
      rcases hrecur type interval interval payload with h | h
      · exact .inl h
      · exact .inr ⟨_, _, _, _, h, rfl⟩
  | scheduleRecurringAfter type delay interval payload =>
      refine .inr (.inr (.inr ⟨fun _ => rfl, ?_⟩))
      rcases hrecur type delay interval payload with h | h
      · exact .inl h
      · exact .inr ⟨_, _, _, _, h, rfl⟩

theorem Move.nextId_le {a : Answer} (hm : Move s a t) : s.nextId ≤ t.nextId := by
  cases hm with
  | add => exact Nat.le_succ _
  | refuse | dry | clear => exact le_rfl
  | pop h => exact (popped h).nextId.ge
  | cancel k =>
      rcases s.cancel_cases k with ⟨hc, -⟩ | ⟨e, heap, hc, -⟩
      · rw [hc]
      · rw [hc]

theorem nextId_le_after (s : Scheduler) (rs : List Request) : s.nextId ≤ (s.after rs).nextId := by
  induction rs generalizing s with
  | nil => exact le_rfl
  | cons r rs ih => exact (perform_move s r).nextId_le.trans (ih _)

theorem taken_append (s : Scheduler) (rs later : List Request) :
    s.taken (rs ++ later) = s.taken rs ++ (s.after rs).taken later := by
  induction rs generalizing s with
  | nil => rfl
  | cons r rs ih =>
      rw [List.cons_append, taken_cons, taken_cons, ih, List.append_assoc]
      rfl

theorem Sound.pendingWith_eq_zero (hs : Sound s) (hid : s.nextId ≤ id) : s.pendingWith id = 0 := by
  rw [pendingWith, Multiset.countP_eq_zero]
  intro e he heq
  have hlt := (hs.future e he).id
  omega

theorem pendingWith_add (s : Scheduler) (id : Nat) (type : String) (time : Binary64)
    (payload : Payload) (interval : Option Binary64) :
    (s.add type time payload interval).2.pendingWith id =
      s.pendingWith id + if s.nextId = id then 1 else 0 := by
  rw [pendingWith, events_add, Multiset.countP_cons]
  rfl

/-- A recurring event that is taken out is still pending. -/
theorem pendingWith_pop {e : Event} (hp : s.pop? = some (e, t)) :
    s.pendingWith id = t.pendingWith id + if e.id = id ∧ e.isRecurring = false then 1 else 0 := by
  obtain ⟨rest, hev, hev'⟩ := (popped hp).rest
  rw [pendingWith, pendingWith, hev, hev', Multiset.countP_cons, Multiset.countP_add]
  cases hi : e.interval with
  | none => simp [Event.again_of_once hi, Event.isRecurring, hi]
  | some x =>
      rw [Event.again_of_recurring hi, ← Multiset.cons_zero, Multiset.countP_cons]
      simp [Event.isRecurring, hi, Nat.add_comm]

theorem Sound.cancel_events (hs : Sound s) (id : Nat) :
    (s.cancel id).2.events = s.events.filter (·.id ≠ id) :=
  congrArg Agenda.pending (hs.answers_cancel id).2

theorem Sound.cancel_iff (hs : Sound s) (id : Nat) :
    (s.cancel id).1 = true ↔ ∃ e ∈ s.events, e.id = id := by
  obtain ⟨⟨found, hf, hiff⟩, -⟩ := hs.answers_cancel id
  cases hf
  exact hiff

theorem Sound.pendingWith_cancel (hs : Sound s) (k id : Nat) :
    (s.cancel k).2.pendingWith id = if k = id then 0 else s.pendingWith id := by
  rw [pendingWith, hs.cancel_events, Multiset.countP_filter]
  split
  · next h =>
      rw [Multiset.countP_eq_zero]
      rintro e - ⟨h1, h2⟩
      exact h2 (h1.trans h.symm)
  · next h =>
      refine Multiset.countP_congr rfl fun e _ => propext ⟨And.left, fun he => ⟨he, ?_⟩⟩
      exact fun hk => h (hk.symm.trans he)

/-- All pending events with the identifier are recurring, or none is. -/
def OfKind (s : Scheduler) (id : Nat) (recurring : Bool) : Prop :=
  ∀ e ∈ s.events, e.id = id → e.isRecurring = recurring

theorem OfKind.perform {recurring : Bool} (hk : OfKind s id recurring) (hid : id < s.nextId)
    (r : Request) : OfKind (s.perform r).2 id recurring :=
  (perform_move s r).lasts (fun _ _ _ _ _ heq => absurd heq hid.ne') (fun _ _ _ he => he) hk

/-- A pending event is taken out for good, withdrawn or still pending after a request. -/
theorem Sound.balance {recurring : Bool} (hs : Sound s) (hk : OfKind s id recurring)
    (hid : id < s.nextId) (r : Request) :
    s.pendingWith id = (if recurring then 0 else (s.perform r).1.event?.toList.countP (·.id = id)) +
      (if r.withdraws id then s.pendingWith id else 0) + (s.perform r).2.pendingWith id := by
  rcases perform_cases s r with rfl | ⟨k, rfl⟩ | rfl | ⟨hw, ⟨e, h⟩ | ⟨type, time, payload, _, h, -⟩⟩
  · cases hp : s.pop? with
    | none =>
        have hperf : s.perform .pop = (.event none, s) := by simp only [Scheduler.perform, hp]
        rw [hperf]
        simp [Request.withdraws, Answer.event?]
    | some p =>
        have hperf : s.perform .pop = (.event (some p.1), p.2) := by
          simp only [Scheduler.perform, hp]
        have hkind := hk p.1 (popped hp).mem
        rw [hperf, pendingWith_pop hp]
        by_cases h : p.1.id = id
        · rw [hkind h]
          cases recurring <;> simp [h, Request.withdraws, Answer.event?, Nat.add_comm]
        · simp [h, Request.withdraws, Answer.event?]
  · have hperf : s.perform (.cancel k) = (.found (s.cancel k).1, (s.cancel k).2) := rfl
    rw [hperf, hs.pendingWith_cancel k id]
    by_cases h : k = id <;> simp [h, Request.withdraws, Answer.event?]
  · have hperf : s.perform .clear = (.done, s.clear) := rfl
    have hempty : s.clear.pendingWith id = 0 := Multiset.countP_zero _
    rw [hperf, hempty]
    simp [Request.withdraws, Answer.event?]
  · rw [h]
    simp [hw, Answer.event?]
  · rw [h, pendingWith_add, if_neg hid.ne']
    simp [hw, Answer.event?]

/-- What is pending under an identifier at the start of a run is taken out for good, withdrawn or
still pending at its end. -/
theorem Sound.run_balance {recurring : Bool} (hs : Sound s) (hk : OfKind s id recurring)
    (hid : id < s.nextId) (rs : List Request) :
    s.pendingWith id = (if recurring then 0 else s.takenWith rs id) + s.withdrawnWith id rs +
      (s.after rs).pendingWith id := by
  induction rs generalizing s with
  | nil => simp [takenWith, taken, Scheduler.answers, withdrawnWith, Scheduler.after]
  | cons r rs ih =>
      have hstep := hs.balance hk hid r
      have hrun := ih (hs.perform r) (hk.perform hid r)
        (hid.trans_le (perform_move s r).nextId_le)
      have htaken : s.takenWith (r :: rs) id = (s.perform r).1.event?.toList.countP (·.id = id) +
          (s.perform r).2.takenWith rs id := by
        rw [takenWith, taken_cons, List.countP_append]
        rfl
      have hafter : s.after (r :: rs) = (s.perform r).2.after rs := rfl
      rw [withdrawnWith, htaken, hafter]
      cases recurring with
      | true =>
          simp only [if_true] at hstep hrun ⊢
          omega
      | false =>
          simp only [Bool.false_eq_true, if_false] at hstep hrun ⊢
          omega

theorem withdrawnWith_eq_zero {rs : List Request} (h : rs.any (·.withdraws id) = false) :
    s.withdrawnWith id rs = 0 := by
  induction rs generalizing s with
  | nil => rfl
  | cons r rs ih =>
      rw [List.any_cons, Bool.or_eq_false_iff] at h
      simp [withdrawnWith, h.1, ih h.2]

/-- As it does not go in any other way, the first request to withdraw a recurring event finds it
pending. -/
theorem Sound.withdrawnWith_pos (hs : Sound s) (hk : OfKind s id true) (hid : id < s.nextId)
    (hp : s.pendingWith id = 1) {rs : List Request} (h : rs.any (·.withdraws id) = true) :
    0 < s.withdrawnWith id rs := by
  induction rs generalizing s with
  | nil => simp at h
  | cons r rs ih =>
      rw [withdrawnWith]
      by_cases hr : r.withdraws id = true
      · rw [if_pos hr, hp]
        omega
      · have hstep := hs.balance hk hid r
        rw [if_neg hr, hp] at hstep
        rw [List.any_cons, Bool.or_eq_true_iff] at h
        have hpos := ih (hs.perform r) (hk.perform hid r)
          (hid.trans_le (perform_move s r).nextId_le) (by simpa using hstep.symm)
          (h.resolve_left hr)
        omega

/-- Identifiers that are still to be given out have not been seen. -/
theorem Sound.taken_id_lt (hs : Sound s) (rs : List Request) :
    ∀ e ∈ s.taken rs, e.id < (s.after rs).nextId := by
  induction rs generalizing s with
  | nil => simp [taken, Scheduler.answers]
  | cons r rs ih =>
      rw [taken_cons]
      intro e he
      rcases List.mem_append.mp he with he | he
      · have hm := perform_move s r
        have hle := nextId_le_after (s.perform r).2 rs
        refine lt_of_lt_of_le ?_ hle
        revert hm he
        generalize (s.perform r).1 = a
        generalize (s.perform r).2 = t
        intro he hm
        cases hm with
        | pop hp =>
            obtain rfl : e = _ := by simpa [Answer.event?] using he
            rw [(popped hp).nextId]
            exact (hs.pop_future hp).id
        | add | refuse | dry | cancel | clear => simp [Answer.event?] at he
      · exact ih (hs.perform r) e he

/-- A new event is pending once, under an identifier that was never used. -/
theorem Sound.issued (hs : Sound s) {r : Request} (h : (s.perform r).1 = .id id) :
    id = s.nextId ∧ (s.perform r).2.nextId = s.nextId + 1 ∧ (s.perform r).2.pendingWith id = 1 ∧
      OfKind (s.perform r).2 id r.isRecurring := by
  rcases perform_cases s r with
    rfl | ⟨k, rfl⟩ | rfl | ⟨-, ⟨e, he⟩ | ⟨type, time, payload, _, hp, hr⟩⟩
  · cases hp : s.pop? with
    | none => simp [Scheduler.perform, hp] at h
    | some p => simp [Scheduler.perform, hp] at h
  · simp [Scheduler.perform] at h
  · simp [Scheduler.perform] at h
  · simp [he] at h
  · rw [hp] at h ⊢
    obtain rfl := Answer.id.inj h
    refine ⟨rfl, rfl, ?_, ?_⟩
    · rw [pendingWith_add, hs.pendingWith_eq_zero le_rfl]
      simp
    · rw [OfKind, events_add]
      intro e he heq
      rcases Multiset.mem_cons.mp he with rfl | he
      · exact hr
      · exact absurd heq (hs.future e he).id.ne

/-- An event is not taken out before it is issued. -/
theorem Sound.takenWith_issued (hs : Sound s) (rs : List Request) {r : Request}
    (hr : ((s.after rs).perform r).1 = .id id) (later : List Request) :
    s.takenWith (rs ++ r :: later) id = ((s.after rs).perform r).2.takenWith later id := by
  have hid := ((hs.after rs).issued hr).1
  have hbefore : s.takenWith rs id = 0 := by
    rw [takenWith, List.countP_eq_zero]
    intro e he
    have hlt := hs.taken_id_lt rs e he
    simp only [decide_eq_true_eq]
    omega
  rw [takenWith, taken_append, List.countP_append, taken_cons, List.countP_append, hr]
  change s.takenWith rs id + (0 + _) = _
  rw [hbefore, Nat.zero_add, Nat.zero_add]
  rfl

/-- A one-off event that was issued is accounted for. -/
theorem Sound.run_once (hs : Sound s) {r : Request} (hr : (s.perform r).1 = .id id)
    (hone : r.isRecurring = false) (later : List Request) :
    (s.perform r).2.takenWith later id + (s.perform r).2.withdrawnWith id later +
      ((s.perform r).2.after later).pendingWith id = 1 := by
  obtain ⟨hid, hnext, hpending, hkind⟩ := hs.issued hr
  have hrun := (hs.perform r).run_balance hkind (by omega) later
  rw [hone, hpending] at hrun
  simpa only [Bool.false_eq_true, if_false] using hrun.symm

/-- A recurring event that was issued is pending until it is withdrawn. -/
theorem Sound.run_recurring (hs : Sound s) {r : Request} (hr : (s.perform r).1 = .id id)
    (hrec : r.isRecurring = true) (later : List Request) :
    ((s.perform r).2.after later).pendingWith id =
      if later.any (·.withdraws id) then 0 else 1 := by
  obtain ⟨hid, hnext, hpending, hkind⟩ := hs.issued hr
  have hrun := (hs.perform r).run_balance hkind (by omega) later
  rw [hrec] at hkind hrun
  rw [hpending] at hrun
  by_cases hw : later.any (·.withdraws id) = true
  · have hpos := (hs.perform r).withdrawnWith_pos hkind (by omega) hpending hw
    simp only [if_true, hw] at hrun ⊢
    omega
  · rw [withdrawnWith_eq_zero (Bool.eq_false_iff.mpr hw)] at hrun
    simp only [if_true, hw, Bool.false_eq_true, if_false] at hrun ⊢
    omega

/-- Between two resets identifiers and sequence numbers are distinct, and an event is cancelled just
if it is pending. A one-off event is taken out once, withdrawn or still pending; a recurring event
is pending, once at a time, until it is withdrawn. -/
theorem delivered_exactly_once (s : Scheduler) (rs : List Request) :
    ((s.reset.after rs).events.map (·.id)).Nodup ∧
      ((s.reset.after rs).events.map (·.sequence)).Nodup ∧
      (∀ e ∈ (s.reset.after rs).events,
        e.id < (s.reset.after rs).nextId ∧ e.sequence < (s.reset.after rs).nextSequence) ∧
      (∀ id, (((s.reset.after rs).cancel id).1 = true ↔
          ∃ e ∈ (s.reset.after rs).events, e.id = id) ∧
        ((s.reset.after rs).cancel id).2.events =
          (s.reset.after rs).events.filter (·.id ≠ id)) ∧
      ∀ r id, ((s.reset.after rs).perform r).1 = .id id → ∀ later,
        if r.isRecurring then
          (s.reset.after (rs ++ r :: later)).pendingWith id =
            if later.any (·.withdraws id) then 0 else 1
        else
          s.reset.takenWith (rs ++ r :: later) id +
            ((s.reset.after rs).perform r).2.withdrawnWith id later +
            (s.reset.after (rs ++ r :: later)).pendingWith id = 1 := by
  have hreset : Sound s.reset := empty_sound
  have hs := hreset.after rs
  refine ⟨hs.ids, hs.sequences, ?_, fun id => ⟨hs.cancel_iff id, hs.cancel_events id⟩, ?_⟩
  · exact fun e he => ⟨(hs.future e he).id, (hs.future e he).sequence⟩
  · intro r id hr later
    have hafter : s.reset.after (rs ++ r :: later) = ((s.reset.after rs).perform r).2.after later :=
      after_append ..
    rw [hafter]
    cases hrec : r.isRecurring with
    | true => simpa only [if_true] using hs.run_recurring hr hrec later
    | false =>
        rw [hreset.takenWith_issued rs hr later]
        simpa only [Bool.false_eq_true, if_false] using hs.run_once hr hrec later

def Request.beat : Request := .scheduleRecurring "beat" (.ofInt 2) {}

def Request.stop : Request := .schedule "end" (.ofInt 1) {}

theorem beat_delivered_until_cancelled :
    (empty.perform .beat).1 = .id 0 ∧ ((empty.after [.beat]).perform .stop).1 = .id 1 ∧
      (empty.after [.beat, .stop, .pop, .pop]).pendingWith 0 = 1 ∧
      (empty.after [.beat, .stop, .pop, .pop, .cancel 0]).pendingWith 0 = 0 ∧
      empty.takenWith [.beat, .stop, .pop, .pop] 1 +
        ((empty.after [.beat]).perform .stop).2.withdrawnWith 1 [.pop, .pop] +
        (empty.after [.beat, .stop, .pop, .pop]).pendingWith 1 = 1 := by
  have hbeat : (empty.perform .beat).1 = .id 0 := by
    rcases empty.scheduleRecurringAfter_cases "beat" (.ofInt 2) (.ofInt 2) {} with
      ⟨-, h⟩ | ⟨hv, -⟩
    · simp only [Request.beat, perform, scheduleRecurring, h]
      rfl
    · exact absurd hv (by decide +kernel)
  have hstop : ((empty.after [.beat]).perform .stop).1 = .id 1 := by
    have hnext : (empty.after [.beat]).nextId = 1 := by decide +kernel
    rw [← hnext]
    rfl
  have hreset : empty.reset = empty := rfl
  have h0 := (delivered_exactly_once empty []).2.2.2.2 .beat 0 hbeat
  have h1 := (delivered_exactly_once empty [.beat]).2.2.2.2 .stop 1 hstop [.pop, .pop]
  rw [if_neg (by simp [Request.stop, Request.isRecurring]), List.singleton_append, hreset] at h1
  exact ⟨hbeat, hstop, h0 [.stop, .pop, .pop], h0 [.stop, .pop, .pop, .cancel 0], h1⟩

end RuleSim.Scheduler
