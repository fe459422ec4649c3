import Mathlib.Data.ENat.Lattice
import RuleSim.Proofs.Execution.Accounts
import RuleSim.Proofs.Execution.Termination

namespace RuleSim

namespace Execution

variable {c : Scope} {body : List Action} {s t u : State}

def Round (c : Scope) (condition : Expr) (body : List Action) (s t : State) : Prop :=
  ∃ u, Holds c condition s u ∧ runActions c body u = .ok () t

inductive Rounds (c : Scope) (condition : Expr) (body : List Action) :
    State → (n : Nat) → State → Prop
  | none (s : State) : Rounds c condition body s 0 s
  | more {s t u : State} {n : Nat} (h : Round c condition body s t)
      (hrest : Rounds c condition body t n u) : Rounds c condition body s (n + 1) u

/-- A `while` loop comes to an end without any limit. It runs its body `k` times, counting one that
fails. The limits hold for the loops in its body. -/
inductive Unlimited (c : Scope) (condition : Expr) (body : List Action) :
    State → (k : Nat) → EStateM.Result Error State Unit → Prop
  | ended {s t : State} {v : Value} (hc : evaluate c condition s = .ok v t)
      (hv : v.truthy = false) : Unlimited c condition body s 0 (.ok () t)
  | error {s t : State} {e : Error} (hc : evaluate c condition s = .error e t) :
      Unlimited c condition body s 0 (.error e t)
  | failed {s t u : State} {e : Error} (hc : Holds c condition s t)
      (hb : runActions c body t = .error e u) : Unlimited c condition body s 1 (.error e u)
  | again {s t : State} {k : Nat} {r : EStateM.Result Error State Unit}
      (h : Round c condition body s t) (hrest : Unlimited c condition body t k r) :
      Unlimited c condition body s (k + 1) r

inductive Total (c : Scope) (condition : Expr) (body : List Action) (s : State) : ℕ∞ → Prop
  | finite {k : Nat} {r : EStateM.Result Error State Unit}
      (h : Unlimited c condition body s k r) : Total c condition body s k
  | endless (h : ∀ n, ∃ t, Rounds c condition body s n t) : Total c condition body s ⊤

section While

variable {condition : Expr} {k n : Nat} {r : EStateM.Result Error State Unit}

theorem Holds.unique {t' : State} (h : Holds c condition s t) (h' : Holds c condition s t') :
    t = t' := by
  obtain ⟨v, hv, -⟩ := h
  obtain ⟨v', hv', -⟩ := h'
  rw [hv] at hv'
  cases hv'
  rfl

theorem Holds.not_false {v : Value} (h : Holds c condition s t)
    (hc : evaluate c condition s = .ok v u) : v.truthy ≠ false := by
  obtain ⟨v', hv', htrue⟩ := h
  rw [hv'] at hc
  cases hc
  simp [htrue]

theorem Holds.not_error {e : Error} (h : Holds c condition s t) :
    evaluate c condition s ≠ .error e u := by
  obtain ⟨v, hv, -⟩ := h
  simp [hv]

theorem Round.unique {t' : State} (h : Round c condition body s t)
    (h' : Round c condition body s t') : t = t' := by
  obtain ⟨u, hu, hb⟩ := h
  obtain ⟨u', hu', hb'⟩ := h'
  rw [hu.unique hu', hb'] at hb
  cases hb
  rfl

theorem Unlimited.pos_iff (h : Unlimited c condition body s k r) :
    0 < k ↔ ∃ t, Holds c condition s t := by
  cases h with
  | ended hc hv =>
      refine iff_of_false (Nat.lt_irrefl 0) ?_
      rintro ⟨t, ht⟩
      exact ht.not_false hc hv
  | error hc =>
      refine iff_of_false (Nat.lt_irrefl 0) ?_
      rintro ⟨t, ht⟩
      exact ht.not_error hc
  | failed hc _ => exact ⟨fun _ => ⟨_, hc⟩, fun _ => Nat.one_pos⟩
  | again hround _ =>
      obtain ⟨t, ht, -⟩ := hround
      exact ⟨fun _ => ⟨t, ht⟩, fun _ => Nat.succ_pos _⟩

theorem Unlimited.le_one (h : Unlimited c condition body s k r)
    (hnot : ∀ t, ¬ Round c condition body s t) : k ≤ 1 := by
  cases h with
  | ended | error => exact Nat.zero_le 1
  | failed => exact Nat.le_refl 1
  | again hround _ => exact absurd hround (hnot _)

/-- After a round as much is left as before, less one run. -/
theorem Unlimited.of_round (h : Unlimited c condition body s k r)
    (hround : Round c condition body s t) : ∃ m, k = m + 1 ∧ Unlimited c condition body t m r := by
  obtain ⟨w, hw, hb⟩ := id hround
  cases h with
  | ended hc hv => exact absurd hv (hw.not_false hc)
  | error hc => exact absurd hc hw.not_error
  | failed hc hfail =>
      rw [hw.unique hc, hfail] at hb
      cases hb
  | again h hrest => exact ⟨_, rfl, hround.unique h ▸ hrest⟩

theorem Unlimited.of_rounds (h : Unlimited c condition body s k r)
    (hrounds : Rounds c condition body s n t) :
    ∃ m, k = n + m ∧ Unlimited c condition body t m r := by
  induction hrounds generalizing k with
  | none s => exact ⟨k, (Nat.zero_add k).symm, h⟩
  | more hround _ ih =>
      obtain ⟨j, rfl, hj⟩ := h.of_round hround
      obtain ⟨m, rfl, hm⟩ := ih hj
      exact ⟨m, Nat.add_right_comm _ m 1, hm⟩

/-- Where the condition still holds, the loop is not at its end. -/
theorem Unlimited.lt_of_rounds (h : Unlimited c condition body s k r)
    (hrounds : Rounds c condition body s n t) (hc : Holds c condition t u) : n < k := by
  obtain ⟨m, rfl, hm⟩ := h.of_rounds hrounds
  have hpos := hm.pos_iff.mpr ⟨u, hc⟩
  omega

theorem Unlimited.unique {k' : Nat} {r' : EStateM.Result Error State Unit}
    (h : Unlimited c condition body s k r) (h' : Unlimited c condition body s k' r') : k = k' := by
  induction k generalizing s k' with
  | zero =>
      have hpos := h.pos_iff.trans h'.pos_iff.symm
      omega
  | succ k ih =>
      by_cases hround : ∃ t, Round c condition body s t
      · obtain ⟨t, ht⟩ := hround
        obtain ⟨m, hm, hrest⟩ := h.of_round ht
        obtain ⟨m', rfl, hrest'⟩ := h'.of_round ht
        obtain rfl : k = m := Nat.succ.inj hm
        rw [ih hrest hrest']
      · have hpos := h.pos_iff.trans h'.pos_iff.symm
        have hone := h.le_one (not_exists.mp hround)
        have hone' := h'.le_one (not_exists.mp hround)
        omega

theorem exists_round_of_endless (h : ∀ k r, ¬ Unlimited c condition body s k r) :
    ∃ t, Round c condition body s t ∧ ∀ k r, ¬ Unlimited c condition body t k r := by
  cases hc : evaluate c condition s with
  | error e u => exact absurd (.error hc) (h 0 _)
  | ok v u =>
      cases hv : v.truthy with
      | false => exact absurd (.ended hc hv) (h 0 _)
      | true =>
          cases hb : runActions c body u with
          | error e t => exact absurd (.failed ⟨v, hc, hv⟩ hb) (h 1 _)
          | ok a t =>
              have hround : Round c condition body s t := ⟨u, ⟨v, hc, hv⟩, hb⟩
              exact ⟨t, hround, fun k r hrest => h (k + 1) r (.again hround hrest)⟩

theorem exists_rounds_of_endless (h : ∀ k r, ¬ Unlimited c condition body s k r) (n : Nat) :
    ∃ t, Rounds c condition body s n t := by
  induction n generalizing s with
  | zero => exact ⟨s, .none s⟩
  | succ n ih =>
      obtain ⟨t, hround, ht⟩ := exists_round_of_endless h
      obtain ⟨u, hu⟩ := ih ht
      exact ⟨u, .more hround hu⟩

theorem existsUnique_total (c : Scope) (condition : Expr) (body : List Action) (s : State) :
    ∃! k, Total c condition body s k := by
  by_cases h : ∃ k r, Unlimited c condition body s k r
  · obtain ⟨k, r, hk⟩ := h
    refine ⟨k, .finite hk, fun k' hk' => ?_⟩
    cases hk' with
    | finite h => rw [h.unique hk]
    | endless h =>
        obtain ⟨t, ht⟩ := h (k + 1)
        obtain ⟨m, hm, -⟩ := hk.of_rounds ht
        omega
  · simp only [not_exists] at h
    refine ⟨⊤, .endless (exists_rounds_of_endless h), fun k' hk' => ?_⟩
    cases hk' with
    | finite hk => exact absurd hk (h _ _)
    | endless => rfl

theorem Total.unique {k k' : ℕ∞} (h : Total c condition body s k)
    (h' : Total c condition body s k') : k = k' :=
  (existsUnique_total c condition body s).unique h h'

theorem Total.lt_of_holds {k : ℕ∞} (h : Total c condition body s k)
    (hrounds : Rounds c condition body s n t) (hc : Holds c condition t u) : (n : ℕ∞) < k := by
  cases h with
  | finite hk => exact Nat.cast_lt.mpr (hk.lt_of_rounds hrounds hc)
  | endless => exact ENat.natCast_lt_top n

abbrev Scope.whileLimit (c : Scope) : TraceEvent :=
  .limitReached c.rule (.whileIterations c.limits.whileIterations)

/-- A run under the limit is one without it, or it has come to the limit. -/
theorem WhileRuns.unlimited_or {done : Nat} (h : WhileRuns c condition body done s n r)
    (hdone : done ≤ c.limits.whileIterations) :
    (Unlimited c condition body s n r ∧ done + n ≤ c.limits.whileIterations) ∨
      done + n = c.limits.whileIterations ∧ ∃ t u, Rounds c condition body s n t ∧
        Holds c condition t u ∧ r = .ok () (noted c.whileLimit u) := by
  induction h with
  | «over» hc hv => exact .inl ⟨.ended hc hv, hdone⟩
  | error hc => exact .inl ⟨.error hc, hdone⟩
  | stopped hc => exact .inr ⟨rfl, _, _, .none _, hc, rfl⟩
  | failed hc hlt hb => exact .inl ⟨.failed hc hb, hlt⟩
  | again hc hlt hb _ ih =>
      have hround : Round c condition body _ _ := ⟨_, hc, hb⟩
      rcases ih hlt with ⟨hrest, hle⟩ | ⟨heq, t, u, hrounds, hholds, hr⟩
      · exact .inl ⟨.again hround hrest, by omega⟩
      · exact .inr ⟨by omega, t, u, .more hround hrounds, hholds, hr⟩

theorem WhileRuns.within_or_beyond {k : ℕ∞} (h : WhileRuns c condition body 0 s n r)
    (hk : Total c condition body s k) :
    ((n : ℕ∞) = k ∧ n ≤ c.limits.whileIterations ∧ Unlimited c condition body s n r) ∨
      n = c.limits.whileIterations ∧ (n : ℕ∞) < k ∧ ∃ t u, Rounds c condition body s n t ∧
        Holds c condition t u ∧ r = .ok () (noted c.whileLimit u) := by
  rcases h.unlimited_or (Nat.zero_le _) with ⟨hrest, hle⟩ | ⟨heq, t, u, hrounds, hholds, hr⟩
  · exact .inl ⟨(Total.finite hrest).unique hk, Nat.zero_add n ▸ hle, hrest⟩
  · exact .inr ⟨Nat.zero_add n ▸ heq, hk.lt_of_holds hrounds hholds, t, u, hrounds, hholds, hr⟩

theorem WhileRuns.count_eq_min {k : ℕ∞} (h : WhileRuns c condition body 0 s n r)
    (hk : Total c condition body s k) : (n : ℕ∞) = min k c.limits.whileIterations := by
  rcases h.within_or_beyond hk with ⟨rfl, hle, -⟩ | ⟨rfl, hlt, -⟩
  · exact (min_eq_left (Nat.cast_le.mpr hle)).symm
  · exact (min_eq_right hlt.le).symm

/-- Under the limit the loop is what it is without one, less the runs beyond the limit. -/
structure Capped (c : Scope) (condition : Expr) (body : List Action) (s : State) (k : ℕ∞) :
    Prop where
  count (n : Nat) : WhileRuns c condition body 0 s n (runAction c (.repeatWhile condition body) s) ↔
    (n : ℕ∞) = min k c.limits.whileIterations
  within (h : k ≤ c.limits.whileIterations) :
    ∃ n : Nat, (n : ℕ∞) = k ∧
      Unlimited c condition body s n (runAction c (.repeatWhile condition body) s)
  beyond (h : c.limits.whileIterations < k) :
    ∃ t u, Rounds c condition body s c.limits.whileIterations t ∧ Holds c condition t u ∧
      runAction c (.repeatWhile condition body) s = .ok () (noted c.whileLimit u) ∧
        (s.trace.enabled = true →
          (noted c.whileLimit u).trace.events = u.trace.events.push c.whileLimit)

theorem whileRuns_repeatWhile (c : Scope) (condition : Expr) (body : List Action) (s : State) :
    ∃ n, WhileRuns c condition body 0 s n (runAction c (.repeatWhile condition body) s) := by
  rw [runAction]
  exact (whileRuns_whileLoop _ 0 (Nat.zero_add _) s).imp fun _ => And.right

theorem sameAccount_of_evaluate {e : Expr} {v : Value} (h : evaluate c e s = .ok v t) :
    SameAccount s t := by
  have haccount := (discreet_evaluates c).expr e s
  rw [final_of_ok h] at haccount
  exact haccount

theorem Holds.sameAccount (h : Holds c condition s t) : SameAccount s t := by
  obtain ⟨v, hv, -⟩ := h
  exact sameAccount_of_evaluate hv

theorem Rounds.sameAccount (h : Rounds c condition body s n t) : SameAccount s t := by
  induction h with
  | none s => exact .refl s
  | more hround _ ih =>
      obtain ⟨u, hu, hb⟩ := hround
      have haccount := runActions_closed discreet_closed.toComposed (discreet_evaluates c) body
        (fun _ _ => trivial) u
      rw [final_of_ok hb] at haccount
      exact (hu.sameAccount.trans haccount).trans ih

theorem noted_events {e : TraceEvent} (h : s.trace.enabled = true) :
    (noted e s).trace.events = s.trace.events.push e := by
  rw [noted, TraceSink.record, if_pos h]

theorem capped_of_total {k : ℕ∞} (hk : Total c condition body s k) :
    Capped c condition body s k := by
  obtain ⟨n, hn⟩ := whileRuns_repeatWhile c condition body s
  refine ⟨fun m => ⟨fun hm => hm.count_eq_min hk, fun hm => ?_⟩, fun hle => ?_, fun hlt => ?_⟩
  · rw [← hn.count_eq_min hk, Nat.cast_inj] at hm
    exact hm ▸ hn
  · rcases hn.within_or_beyond hk with ⟨heq, -, hrun⟩ | ⟨rfl, hlt, -⟩
    · exact ⟨n, heq, hrun⟩
    · exact absurd hle hlt.not_ge
  · rcases hn.within_or_beyond hk with ⟨rfl, hle, -⟩ | ⟨rfl, -, t, u, hrounds, hholds, hr⟩
    · exact absurd hlt (Nat.cast_le.mpr hle).not_gt
    · refine ⟨t, u, hrounds, hholds, hr, fun hon => noted_events ?_⟩
      exact (hrounds.sameAccount.trans hholds.sameAccount).enabled.trans hon

end While

abbrev Scope.loopLimit (c : Scope) : TraceEvent :=
  .limitReached c.rule (.loopIterations c.limits.loopIterations)

def FailsAfter (c : Scope) (name : String) (body : List Action) (values : List Value) (s : State)
    (n : Nat) (e : Error) (t : State) : Prop :=
  ∃ before v after u, values = before ++ v :: after ∧ before.length = n ∧
    Visits c name body before s n (.ok () u) ∧ runActions c body (given name v u) = .error e t

/-- A loop over a list visits the beginning of the list, as much as the limit allows, in order. Only
a failure of the body ends it earlier and makes it fail. -/
structure Visited (c : Scope) (name : String) (items : Expr) (body : List Action) (s : State)
    (values : List Value) (t : State) (n : Nat) (r : EStateM.Result Error State Unit) : Prop where
  visits : Visits c name body (values.take c.limits.loopIterations) (visiting c values t) n r
  result : runAction c (.each name items body) s = restored name (Table.find? s.locals name) r
  count : (∃ u, r = .ok () u ∧ n = min values.length c.limits.loopIterations) ∨
    ∃ m e u, FailsAfter c name body (values.take c.limits.loopIterations) (visiting c values t)
      m e u ∧ r = .error e u ∧ n = m + 1
  reported (hon : s.trace.enabled = true) : (visiting c values t).trace.events =
    if c.limits.loopIterations < values.length then t.trace.events.push c.loopLimit
    else t.trace.events

section Each

variable {name : String} {items : Expr} {values : List Value} {n : Nat}
  {r : EStateM.Result Error State Unit}

theorem Visits.outcome (h : Visits c name body values s n r) :
    (∃ t, r = .ok () t ∧ n = values.length) ∨
      ∃ m e t, FailsAfter c name body values s m e t ∧ r = .error e t ∧ n = m + 1 := by
  induction h with
  | «over» s => exact .inl ⟨s, rfl, rfl⟩
  | @failed v vs s t e hb => exact .inr ⟨0, e, t, ⟨[], v, vs, s, rfl, rfl, .over s, hb⟩, rfl, rfl⟩
  | @again v vs s t k r hb hrest ih =>
      rcases ih with ⟨t, hr, rfl⟩ | ⟨m, e, t, ⟨before, x, after, u, rfl, rfl, hu, hx⟩, hr, rfl⟩
      · exact .inl ⟨t, hr, rfl⟩
      · exact .inr ⟨_, e, t, ⟨v :: before, x, after, u, rfl, rfl, .again hb hu, hx⟩, hr, rfl⟩

theorem evaluate_locals (c : Scope) (e : Expr) (s : State) :
    (final (evaluate c e) s).locals = s.locals :=
  (eval_closed keepsFrame_evaluable c (keepsFrame_invokeAt c _) e s).locals

theorem visited_of_list (hv : evaluate c items s = .ok (.list values) t) (name : String)
    (body : List Action) : ∃ n r, Visited c name items body s values t n r := by
  have hlocals := evaluate_locals c items s
  rw [final_of_ok hv] at hlocals
  have hvisits : ∃ n, _ ∧ Visits c name body (values.take c.limits.loopIterations)
      (visiting c values t) n _ := visits_forValues name _ _
  obtain ⟨n, -, hn⟩ := hvisits
  refine ⟨n, _, hn, ?_, ?_, fun hon => ?_⟩
  · rw [runAction, forEach_of_list hv, hlocals]
  · have houtcome := hn.outcome
    rw [List.length_take, min_comm] at houtcome
    exact houtcome
  · unfold visiting
    split
    · exact noted_events ((sameAccount_of_evaluate hv).enabled.trans hon)
    · rfl

theorem find?_restoreLocal (name : String) (saved : Option Value) (s : State) :
    Table.find? (restoreLocal name saved s).locals name = saved := by
  cases saved with
  | some v => exact (Table.find?_put ..).trans (if_pos rfl)
  | none => exact (Table.find?_erase ..).trans (if_pos rfl)

theorem find?_restored (name : String) (saved : Option Value)
    (r : EStateM.Result Error State Unit) :
    Table.find? (stateOf (restored name saved r)).locals name = saved := by
  cases r <;> exact find?_restoreLocal name saved _

theorem EachRuns.keeps (h : EachRuns c name items body s n r) :
    Table.find? (stateOf r).locals name = Table.find? s.locals name := by
  have hlocals := evaluate_locals c items s
  cases h with
  | error hv =>
      rw [final_of_error hv] at hlocals
      exact congrArg (Table.find? · name) hlocals
  | null hv | other hv =>
      rw [final_of_ok hv] at hlocals
      exact congrArg (Table.find? · name) hlocals
  | list hv =>
      rw [final_of_ok hv] at hlocals
      rw [find?_restored, hlocals]

end Each

/-- A `while` loop would run its body a number of times without the limit, or without end. With the
limit it does the same as far as the limit allows, and where the limit is too low it succeeds and
reports that. A loop over the items of an expression evaluates it once; if that gives a list, the
body runs on as many values of it as the limit allows, and the loop reports if there are more. Its
variable means the same before and after in any case. -/
theorem loops_limited (c : Scope) (body : List Action) (s : State) :
    (∀ condition, ∃ k : ℕ∞, Total c condition body s k ∧
      (∀ k', Total c condition body s k' → k' = k) ∧ Capped c condition body s k) ∧
    ∀ name items,
      (∃ k, EachRuns c name items body s k (runAction c (.each name items body) s)) ∧
      (∀ values t, evaluate c items s = .ok (.list values) t →
        ∃ n r, Visited c name items body s values t n r) ∧
      Table.find? (final (runAction c (.each name items body)) s).locals name =
        Table.find? s.locals name := by
  refine ⟨fun condition => ?repeats, fun name items => ?each⟩
  case repeats =>
    obtain ⟨k, hk, hunique⟩ := existsUnique_total c condition body s
    exact ⟨k, hk, hunique, capped_of_total hk⟩
  case each =>
    have hruns : ∃ k, EachRuns c name items body s k (runAction c (.each name items body) s) := by
      rw [runAction]
      exact (eachRuns_forEach name items s).imp fun _ => And.right
    refine ⟨hruns, fun values t hv => visited_of_list hv name body, ?_⟩
    obtain ⟨k, hk⟩ := hruns
    rw [final_eq]
    exact hk.keeps

def turnstile : Scope where
  rules := {}
  limits := { whileIterations := 2, loopIterations := 2 }
  event := ⟨0, "tick", Binary64.zero, {}, 0, none⟩
  rule := "turn"

def turning : State := { trace := { enabled := true } }

def queue : List Value := [.int 1, .int 2, .int 3]

/-- A loop that would not end is stopped, and so is one whose body binds its variable. -/
theorem turnstile_limited :
    (∃ t u, Rounds turnstile (.literal (.bool true)) [] turning 2 t ∧
      runAction turnstile (.repeatWhile (.literal (.bool true)) []) turning =
        .ok () (noted turnstile.whileLimit u)) ∧
      evaluate turnstile (.literal (.list queue)) turning = .ok (.list queue) turning ∧
        ∃ n r, Visited turnstile "i" (.literal (.list queue)) [.bind "i" (.literal .null)] turning
          queue turning n r := by
  have hendless (n : Nat) : Rounds turnstile (.literal (.bool true)) [] turning n turning := by
    induction n with
    | zero => exact .none turning
    | succ n ih => exact .more ⟨turning, ⟨.bool true, rfl, rfl⟩, rfl⟩ ih
  obtain ⟨k, -, hunique, hcapped⟩ := (loops_limited turnstile [] turning).1 (.literal (.bool true))
  obtain rfl : ⊤ = k := hunique ⊤ (.endless fun n => ⟨turning, hendless n⟩)
  obtain ⟨t, u, hrounds, -, hr, -⟩ := hcapped.beyond (ENat.natCast_lt_top 2)
  obtain ⟨-, hlist, -⟩ := (loops_limited turnstile [.bind "i" (.literal .null)] turning).2 "i"
    (.literal (.list queue))
  exact ⟨⟨t, u, hrounds, hr⟩, rfl, hlist queue turning rfl⟩

end Execution

end RuleSim
