import RuleSim.Proofs.Scheduler.Sound

namespace RuleSim

open Binary64 (IsTime)

def Event.Earlier (a b : Event) : Prop :=
  a.time.numLt b.time = true ∨ a.time.numEq b.time = true ∧ a.sequence < b.sequence

theorem Event.earlier_iff {a b : Event} (ha : IsTime a.time) (hb : IsTime b.time) :
    a.Earlier b ↔ a.precedes b = true := by
  rw [Earlier, precedes_iff, ha.numLt_iff hb, ha.numEq_iff hb, ha.totalRank_eq, hb.totalRank_eq]
  omega

namespace Scheduler

def answers : Scheduler → List Request → List Answer
  | _, [] => []
  | s, r :: rs => (s.perform r).1 :: (s.perform r).2.answers rs

def after (s : Scheduler) (rs : List Request) : Scheduler := rs.foldl (fun s r => (s.perform r).2) s

def taken (s : Scheduler) (rs : List Request) : List Event :=
  (s.answers rs).filterMap Answer.event?

theorem taken_cons (s : Scheduler) (r : Request) (rs : List Request) :
    s.taken (r :: rs) = (s.perform r).1.event?.toList ++ (s.perform r).2.taken rs := by
  rw [taken, answers, List.filterMap_cons]
  cases (s.perform r).1.event? <;> rfl

theorem after_append (s : Scheduler) (rs later : List Request) :
    s.after (rs ++ later) = (s.after rs).after later := List.foldl_append ..

theorem Sound.after {s : Scheduler} (hs : Sound s) (rs : List Request) : Sound (s.after rs) := by
  induction rs generalizing s with
  | nil => exact hs
  | cons r rs ih => exact ih (hs.perform r)

/-- What came out of the queue precedes all that is or will be in it. -/
structure Behind (s : Scheduler) (k : Event) : Prop where
  isTime : IsTime k.time
  not_late : k.time.magnitude ≤ s.now.magnitude
  sequence : k.sequence < s.nextSequence
  pending : ∀ f ∈ s.events, k.precedes f = true

/-- An event that is queued now has a larger key than all that came out before. -/
theorem Behind.precedes_new {s : Scheduler} {k f : Event} (hb : Behind s k) (hf : IsTime f.time)
    (ht : s.now.magnitude ≤ f.time.magnitude) (hq : f.sequence = s.nextSequence) :
    k.precedes f = true := by
  have hk := hb.not_late
  have hs := hb.sequence
  rw [Event.precedes_iff, hb.isTime.totalRank_eq, hf.totalRank_eq]
  omega

theorem Sound.now_le_pop {s t : Scheduler} {e : Event} (hs : Sound s)
    (hp : s.pop? = some (e, t)) : s.now.magnitude ≤ t.now.magnitude := by
  rw [hs.pop_now hp]
  exact (hs.pop_future hp).not_past

theorem Sound.behind_pop {s t : Scheduler} {e : Event} (hs : Sound s)
    (hp : s.pop? = some (e, t)) : Behind t e := by
  have hpd := popped hp
  obtain ⟨rest, hev, hev'⟩ := hpd.rest
  have hfe := hs.pop_future hp
  refine ⟨hfe.isTime, (congrArg _ (hs.pop_now hp)).ge, ?_, ?_⟩
  · exact hfe.sequence.trans_le hpd.nextSequence_le
  · rw [hev']
    intro f hf
    rcases Multiset.mem_add.mp hf with hf | hf
    · obtain ⟨ht, hle, hq⟩ := hs.again hp f hf
      have hseq := hfe.sequence
      rw [Event.precedes_iff, hfe.isTime.totalRank_eq, ht.totalRank_eq]
      omega
    · exact hs.pop_least hp f (by rwa [hev, Multiset.erase_cons_head])

theorem Behind.move {s t : Scheduler} {a : Answer} {k : Event} (hb : Behind s k) (hs : Sound s)
    (hm : Move s a t) : Behind t k := by
  cases hm with
  | @add type time payload interval hd hi =>
      obtain ⟨ht, hle⟩ := hd.isTime hs.now
      refine ⟨hb.isTime, hb.not_late, Nat.lt_succ_of_lt hb.sequence, ?_⟩
      rw [events_add]
      intro f hf
      rcases Multiset.mem_cons.mp hf with rfl | hf
      · exact hb.precedes_new ht hle rfl
      · exact hb.pending f hf
  | refuse | dry => exact hb
  | @pop e t hp =>
      have hpd := popped hp
      obtain ⟨rest, hev, hev'⟩ := hpd.rest
      have hnow := hs.now_le_pop hp
      refine ⟨hb.isTime, hb.not_late.trans hnow, ?_, ?_⟩
      · have hq := hb.sequence
        rw [hpd.nextSequence]
        split <;> omega
      · rw [hev']
        intro f hf
        rcases Multiset.mem_add.mp hf with hf | hf
        · obtain ⟨ht, hle, hq⟩ := hs.again hp f hf
          rw [← hs.pop_now hp] at hle
          exact hb.precedes_new ht (hnow.trans hle) hq
        · exact hb.pending f (hev ▸ Multiset.mem_cons_of_mem hf)
  | cancel id =>
      rcases s.cancel_cases id with ⟨hc, -⟩ | ⟨e, heap, hc, -, hev, -⟩
      · rw [hc]
        exact hb
      · rw [hc]
        refine ⟨hb.isTime, hb.not_late, hb.sequence, fun f hf => hb.pending f ?_⟩
        rw [hev]
        exact Multiset.mem_cons_of_mem hf
  | clear =>
      refine ⟨hb.isTime, hb.not_late, hb.sequence, fun f hf => ?_⟩
      exact absurd hf (Multiset.notMem_zero f)

theorem Sound.now_le {s t : Scheduler} {a : Answer} (hs : Sound s) (hm : Move s a t) :
    s.now.magnitude ≤ t.now.magnitude := by
  cases hm with
  | pop hp => exact hs.now_le_pop hp
  | cancel id =>
      rcases s.cancel_cases id with ⟨hc, -⟩ | ⟨e, heap, hc, -⟩
      · rw [hc]
      · rw [hc]
  | add | refuse | dry | clear => exact le_rfl

theorem Sound.now_le_after {s : Scheduler} (hs : Sound s) (rs : List Request) :
    s.now.magnitude ≤ (s.after rs).now.magnitude := by
  induction rs generalizing s with
  | nil => exact le_rfl
  | cons r rs ih => exact (hs.now_le (perform_move s r)).trans (ih (hs.perform r))

/-- The second queue comes of the first one by requests. -/
def Leads (s t : Scheduler) : Prop := ∃ rs, s.after rs = t

theorem Leads.refl (s : Scheduler) : Leads s s := ⟨[], rfl⟩

theorem Leads.trans {s t u : Scheduler} (h : Leads s t) (h' : Leads t u) : Leads s u := by
  obtain ⟨rs, rfl⟩ := h
  obtain ⟨later, rfl⟩ := h'
  exact ⟨rs ++ later, s.after_append rs later⟩

theorem leads_perform (s : Scheduler) (r : Request) : Leads s (s.perform r).2 := ⟨[r], rfl⟩

theorem Leads.sound {s t : Scheduler} (h : Leads s t) (hs : Sound s) : Sound t := by
  obtain ⟨rs, rfl⟩ := h
  exact hs.after rs

theorem Leads.now_le {s t : Scheduler} (h : Leads s t) (hs : Sound s) :
    s.now.magnitude ≤ t.now.magnitude := by
  obtain ⟨rs, rfl⟩ := h
  exact hs.now_le_after rs

theorem leads_pop {s t : Scheduler} {e : Event} (hp : s.pop? = some (e, t)) : Leads s t := by
  have h := s.leads_perform .pop
  rwa [perform, hp] at h

theorem leads_recurring {s t : Scheduler} {type : String} {delay interval : Binary64}
    {payload : Payload} {id : Nat}
    (hs : s.scheduleRecurringAfter type delay interval payload = .ok (id, t)) : Leads s t := by
  have h := s.leads_perform (.scheduleRecurringAfter type delay interval payload)
  rwa [perform, hs] at h

/-- The step and the run at once: `taken` grows at its end, so what is behind the queue at the start
bounds all of it. -/
theorem Sound.taken_precedes {s : Scheduler} (hs : Sound s) (rs : List Request) :
    (s.taken rs).Pairwise (fun a b => a.precedes b = true) ∧
      (∀ e ∈ s.taken rs, IsTime e.time) ∧
      ∀ k, Behind s k → ∀ e ∈ s.taken rs, k.precedes e = true := by
  induction rs generalizing s with
  | nil => simp [taken, Scheduler.answers]
  | cons r rs ih =>
      have hm := perform_move s r
      obtain ⟨hpair, htime, hbehind⟩ := ih (hs.perform r)
      rw [taken_cons]
      revert hm hpair htime hbehind
      generalize (s.perform r).1 = a
      generalize (s.perform r).2 = t
      intro hm hpair htime hbehind
      cases hm with
      | @pop e t hp =>
          have hmem := (popped hp).mem
          refine ⟨List.pairwise_cons.mpr ⟨hbehind e (hs.behind_pop hp), hpair⟩, ?_, ?_⟩
          · exact List.forall_mem_cons.mpr ⟨(hs.future e hmem).isTime, htime⟩
          · intro k hk
            exact List.forall_mem_cons.mpr
              ⟨hk.pending e hmem, hbehind k (hk.move hs (.pop hp))⟩
      | add type payload hd hi =>
          exact ⟨hpair, htime, fun k hk => hbehind k (hk.move hs (.add type payload hd hi))⟩
      | refuse e => exact ⟨hpair, htime, hbehind⟩
      | dry h => exact ⟨hpair, htime, hbehind⟩
      | cancel id => exact ⟨hpair, htime, fun k hk => hbehind k (hk.move hs (.cancel id))⟩
      | clear => exact ⟨hpair, htime, fun k hk => hbehind k (hk.move hs .clear)⟩

/-- Between two resets the keys of the events that are taken out grow strictly, nothing pending is
before the clock, and the clock moves forward, to each event that is taken out. -/
theorem taken_chronological (s : Scheduler) (rs : List Request) :
    (s.reset.taken rs).Pairwise Event.Earlier ∧
      (∀ e ∈ (s.reset.after rs).heap,
        e.time.isNaN = false ∧ (s.reset.after rs).now.numLe e.time = true) ∧
      ∀ r, (s.reset.after rs).now.numLe ((s.reset.after rs).perform r).2.now = true ∧
        ∀ e, ((s.reset.after rs).perform r).1 = .event (some e) →
          ((s.reset.after rs).perform r).2.now = e.time := by
  have hreset : Sound s.reset := empty_sound
  obtain ⟨hpair, htime, -⟩ := hreset.taken_precedes rs
  have hs := hreset.after rs
  refine ⟨?_, ?_, ?_⟩
  · refine hpair.imp_of_mem ?_
    intro a b ha hb h
    exact (Event.earlier_iff (htime a ha) (htime b hb)).mpr h
  · intro e he
    have hf := hs.future e (mem_events.mpr he)
    exact ⟨hf.isTime.not_nan, (hs.now.numLe_iff hf.isTime).mpr hf.not_past⟩
  · intro r
    have hm := perform_move (s.reset.after rs) r
    have ht := hs.perform r
    refine ⟨(hs.now.numLe_iff ht.now).mpr (hs.now_le hm), ?_⟩
    intro e he
    rw [he] at hm
    cases hm with
    | pop hp => exact hs.pop_now hp

end Scheduler

end RuleSim
