import RuleSim.Proofs.Execution.Calls

namespace RuleSim

namespace Execution

def given (name : String) (v : Value) (s : State) : State :=
  { s with locals := Table.put s.locals name v }

/-- A `while` loop that has run its body `done` times already. It runs it `k` more times, counting
one that fails, and comes to a result. It gives up where the condition still holds at the limit. -/
inductive WhileRuns (c : Scope) (condition : Expr) (body : List Action) :
    (done : Nat) → State → (k : Nat) → EStateM.Result Error State Unit → Prop
  | over {done : Nat} {s t : State} {v : Value} (hc : evaluate c condition s = .ok v t)
      (hv : v.truthy = false) : WhileRuns c condition body done s 0 (.ok () t)
  | error {done : Nat} {s t : State} {e : Error} (hc : evaluate c condition s = .error e t) :
      WhileRuns c condition body done s 0 (.error e t)
  | stopped {s t : State} (hc : Holds c condition s t) :
      WhileRuns c condition body c.limits.whileIterations s 0
        (.ok () (noted (.limitReached c.rule (.whileIterations c.limits.whileIterations)) t))
  | failed {done : Nat} {s t u : State} {e : Error} (hc : Holds c condition s t)
      (hd : done < c.limits.whileIterations) (hb : runActions c body t = .error e u) :
      WhileRuns c condition body done s 1 (.error e u)
  | again {done : Nat} {s t u : State} {k : Nat} {r : EStateM.Result Error State Unit}
      (hc : Holds c condition s t) (hd : done < c.limits.whileIterations)
      (hb : runActions c body t = .ok () u) (hrest : WhileRuns c condition body (done + 1) u k r) :
      WhileRuns c condition body done s (k + 1) r

inductive Visits (c : Scope) (name : String) (body : List Action) :
    List Value → State → (k : Nat) → EStateM.Result Error State Unit → Prop
  | over (s : State) : Visits c name body [] s 0 (.ok () s)
  | failed {v : Value} {vs : List Value} {s t : State} {e : Error}
      (hb : runActions c body (given name v s) = .error e t) :
      Visits c name body (v :: vs) s 1 (.error e t)
  | again {v : Value} {vs : List Value} {s t : State} {k : Nat}
      {r : EStateM.Result Error State Unit}
      (hb : runActions c body (given name v s) = .ok () t)
      (hrest : Visits c name body vs t k r) : Visits c name body (v :: vs) s (k + 1) r

def visiting (c : Scope) (values : List Value) (s : State) : State :=
  if c.limits.loopIterations < values.length then
    noted (.limitReached c.rule (.loopIterations c.limits.loopIterations)) s
  else s

/-- A loop over the items that an expression gives. Only a list is visited, and of a list that is
too long only the beginning. -/
inductive EachRuns (c : Scope) (name : String) (items : Expr) (body : List Action) (s : State) :
    (k : Nat) → EStateM.Result Error State Unit → Prop
  | error {t : State} {e : Error} (hv : evaluate c items s = .error e t) :
      EachRuns c name items body s 0 (.error e t)
  | null {t : State} (hv : evaluate c items s = .ok .null t) :
      EachRuns c name items body s 0 (.ok () t)
  | other {t : State} {v : Value} (hv : evaluate c items s = .ok v t) (hnull : v ≠ .null)
      (hlist : ∀ values, v ≠ .list values) :
      EachRuns c name items body s 0 (.error ⟨.notIterable v.typeName, none⟩ t)
  | list {t : State} {values : List Value} {k : Nat} {r : EStateM.Result Error State Unit}
      (hv : evaluate c items s = .ok (.list values) t)
      (hvisits : Visits c name body (values.take c.limits.loopIterations) (visiting c values t) k r) :
      EachRuns c name items body s k (restored name (Table.find? t.locals name) r)

section Loops

variable {c : Scope} {condition : Expr} {body : List Action} {s t : State}

def whileLoop (c : Scope) (condition : Expr) (body : List Action) (n : Nat) : Exec Unit :=
  repeatWhile (do return (← evaluate c condition).truthy) (runActions c body)
    (record (.limitReached c.rule (.whileIterations c.limits.whileIterations))) n

theorem truth_of_ok {v : Value} (h : evaluate c condition s = .ok v t) :
    (do return (← evaluate c condition).truthy : Exec Bool) s = .ok v.truthy t := bind_of_ok h _

theorem truth_of_holds (h : Holds c condition s t) :
    (do return (← evaluate c condition).truthy : Exec Bool) s = .ok true t := by
  obtain ⟨v, hv, htrue⟩ := h
  rw [truth_of_ok hv, htrue]

theorem whileLoop_zero (h : Holds c condition s t) : whileLoop c condition body 0 s =
    .ok () (noted (.limitReached c.rule (.whileIterations c.limits.whileIterations)) t) :=
  bind_of_ok (truth_of_holds h) _

theorem whileLoop_succ (h : Holds c condition s t) (n : Nat) :
    whileLoop c condition body (n + 1) s =
      (runActions c body >>= fun _ => whileLoop c condition body n) t :=
  bind_of_ok (truth_of_holds h) _

theorem whileRuns_of_not_holds (h : ∀ t, ¬ Holds c condition s t) (n done : Nat) :
    WhileRuns c condition body done s 0 (whileLoop c condition body n s) := by
  cases hc : evaluate c condition s with
  | ok v t =>
      have hfalse : v.truthy = false := Bool.eq_false_iff.mpr fun hv => h t ⟨v, hc, hv⟩
      have hloop : whileLoop c condition body n s = .ok () t := by
        cases n <;> exact bind_of_ok (hfalse ▸ truth_of_ok hc) _
      exact hloop ▸ .over hc hfalse
  | error e t =>
      have hloop : whileLoop c condition body n s = .error e t := by
        cases n <;> exact bind_of_error (bind_of_error hc _) _
      exact hloop ▸ .error hc

theorem whileRuns_whileLoop (n done : Nat) (hn : done + n = c.limits.whileIterations)
    (s : State) : ∃ k ≤ n, WhileRuns c condition body done s k
      (whileLoop c condition body n s) := by
  induction n generalizing done s with
  | zero =>
      by_cases h : ∃ t, Holds c condition s t
      · obtain ⟨t, ht⟩ := h
        obtain rfl : done = c.limits.whileIterations := hn
        exact ⟨0, Nat.le_refl 0, whileLoop_zero ht ▸ .stopped ht⟩
      · exact ⟨0, Nat.le_refl 0, whileRuns_of_not_holds (not_exists.mp h) 0 done⟩
  | succ n ih =>
      by_cases h : ∃ t, Holds c condition s t
      · obtain ⟨t, ht⟩ := h
        rw [whileLoop_succ ht]
        cases hb : runActions c body t with
        | ok a u =>
            obtain ⟨k, hk, hrest⟩ := ih (done + 1) (by omega) u
            rw [bind_of_ok hb]
            exact ⟨k + 1, Nat.succ_le_succ hk, .again ht (by omega) hb hrest⟩
        | error e u =>
            rw [bind_of_error hb]
            exact ⟨1, Nat.succ_le_succ (Nat.zero_le n), .failed ht (by omega) hb⟩
      · exact ⟨0, Nat.zero_le _, whileRuns_of_not_holds (not_exists.mp h) (n + 1) done⟩

theorem visits_forValues (name : String) (values : List Value) (s : State) :
    ∃ k ≤ values.length, Visits c name body values s k
      (forValues name (runActions c body) values s) := by
  induction values generalizing s with
  | nil => exact ⟨0, Nat.le_refl 0, .over s⟩
  | cons v vs ih =>
      change ∃ k ≤ vs.length + 1, Visits c name body (v :: vs) s k
        ((runActions c body >>= fun _ => forValues name (runActions c body) vs) (given name v s))
      cases hb : runActions c body (given name v s) with
      | ok a t =>
          obtain ⟨k, hk, hrest⟩ := ih t
          rw [bind_of_ok hb]
          exact ⟨k + 1, Nat.succ_le_succ hk, .again hb hrest⟩
      | error e t =>
          rw [bind_of_error hb]
          exact ⟨1, Nat.succ_le_succ (Nat.zero_le _), .failed hb⟩

theorem forEach_of_list {items : Expr} {values : List Value}
    (hv : evaluate c items s = .ok (.list values) t) (name : String) (body : Exec Unit) :
    forEach c name items body s = restored name (Table.find? t.locals name)
      (forValues name body (values.take c.limits.loopIterations) (visiting c values t)) := by
  unfold forEach visiting
  rw [bind_of_ok hv]
  by_cases hlong : c.limits.loopIterations < values.length
  · simp only [if_pos hlong]
    exact keepingLocal_eq name _ (noted _ t)
  · simp only [if_neg hlong]
    exact keepingLocal_eq name _ t

theorem eachRuns_forEach (name : String) (items : Expr) (s : State) :
    ∃ k ≤ c.limits.loopIterations,
      EachRuns c name items body s k (forEach c name items (runActions c body) s) := by
  cases hv : evaluate c items s with
  | error e t =>
      have h : forEach c name items (runActions c body) s = .error e t := bind_of_error hv _
      exact ⟨0, Nat.zero_le _, h ▸ .error hv⟩
  | ok v t =>
      cases v with
      | null =>
          have h : forEach c name items (runActions c body) s = .ok () t := bind_of_ok hv _
          exact ⟨0, Nat.zero_le _, h ▸ .null hv⟩
      | list values =>
          obtain ⟨k, hk, hvisits⟩ :=
            visits_forValues name (values.take c.limits.loopIterations) (visiting c values t)
          rw [forEach_of_list hv]
          exact ⟨k, hk.trans (List.length_take_le ..), .list hv hvisits⟩
      | _ =>
          unfold forEach
          rw [bind_of_ok hv]
          exact ⟨0, Nat.zero_le _, .other hv nofun nofun⟩

end Loops

/-- An execution outside calls takes a number of steps: those of the expressions that it evaluates,
and of what it does in between. -/
inductive Steps (c : Scope) : {α : Type} → Exec α → State → Nat → Prop
  | evaluation {α : Type} {p : Open α} {s : State} {n : Nat} {r : EStateM.Result Error State α}
      (hp : Runs c p s n r) : Steps c (p (invokeAt c c.limits.callDepth)) s n
  | begin {locals : Fields Value} {s : State} (hroom : s.frames.length ≤ c.limits.callDepth) :
      Steps c (modify fun s => { s with locals, frames := [] }) s 1
  | next {α β : Type} {x : Exec α} {f : α → Exec β} {s t : State} {a : α} {m n : Nat}
      (hx : Steps c x s m) (hs : x s = .ok a t) (hf : Steps c (f a) t n) :
      Steps c (x >>= f) s (m + n)
  | failed {α β : Type} {x : Exec α} {f : α → Exec β} {s t : State} {e : Error} {n : Nat}
      (hx : Steps c x s n) (hs : x s = .error e t) : Steps c (x >>= f) s n
  | keepingLocal {name : String} {body : Exec Unit} {s : State} {n : Nat}
      (hbody : Steps c body s n) : Steps c (keepingLocal name body) s (n + 1)

def Halts (c : Scope) {α : Type} (x : Exec α) : Prop :=
  ∀ s : State, s.frames.length ≤ c.limits.callDepth →
    (final x s).frames.length ≤ c.limits.callDepth ∧ ∃ n, Steps c x s n

variable {c : Scope}

theorem Ends.halts {α : Type} {p : Open α} (h : Ends c c.limits.callDepth p) :
    Halts c (p (invokeAt c c.limits.callDepth)) := by
  intro s hroom
  obtain ⟨n, hn⟩ := h.runs hroom
  refine ⟨?_, n, .evaluation hn⟩
  rw [final_eq, hn.frames]
  exact hroom

theorem Elementary.halts {α : Type} {x : Exec α} (hx : Elementary x) : Halts c x :=
  Ends.halts hx.ends

theorem Halts.bind {α β : Type} {x : Exec α} {f : α → Exec β} (hx : Halts c x)
    (hf : ∀ a, Halts c (f a)) : Halts c (x >>= f) := by
  intro s hroom
  obtain ⟨hend, m, hm⟩ := hx s hroom
  rw [final_bind]
  unfold final at hend
  cases hs : x s with
  | ok a t =>
      rw [hs] at hend
      obtain ⟨hend, n, hn⟩ := hf a t hend
      exact ⟨hend, m + n, hm.next hs hn⟩
  | error e t =>
      rw [hs] at hend
      exact ⟨hend, m, hm.failed hs⟩

theorem Halts.keepingLocal {body : Exec Unit} (hb : Halts c body) (name : String) :
    Halts c (keepingLocal name body) := by
  intro s hroom
  obtain ⟨hend, n, hn⟩ := hb s hroom
  refine ⟨?_, n + 1, hn.keepingLocal⟩
  rw [final_keepingLocal]
  exact hend

theorem halts_composed : Composed (fun _ => True) fun x => Halts c x where
  pure a := (Elementary.pure a).halts
  fail kind := (Elementary.fail kind).halts
  bind := Halts.bind
  reading _ hf := Elementary.get.halts.bind hf
  record e _ := (Elementary.record e).halts
  draw f := (Elementary.draw f).halts
  setField _ _ _ _ := (Elementary.onWorld _).halts
  clone _ := (Elementary.onWorld _).halts
  resolveBound _ _ := (Elementary.onWorld _).halts
  setLocal name v := (Elementary.setLocal name v).halts
  create := (Elementary.onWorld _).halts
  delete _ := (Elementary.onWorld _).halts
  addComponent _ _ _ := (Elementary.onWorld _).halts
  removeComponent _ _ := (Elementary.onWorld _).halts
  addEvent _ _ _ _ := (Elementary.addEvent _ _ _ _).halts
  keepingLocal name _ hb := hb.keepingLocal name
  begin _ _ hroom := ⟨Nat.zero_le _, 1, .begin hroom⟩

theorem halts_runRule (c : Scope) (rule : Rule) (id : EntityId) : Halts c (runRule c rule id) :=
  runRule_composed halts_composed (halts_composed.compositional c fun name params body args =>
    (ends_call name params body args).halts).evaluates id (Elementary.record _).halts
    fun _ _ => trivial

inductive RunsOn (c : Scope) (rule : Rule) :
    List EntityId → State × EventReport → Nat → State × EventReport → Prop
  | nil (p : State × EventReport) : RunsOn c rule [] p 0 p
  | gone {id : EntityId} {ids : List EntityId} {s : State} {r : EventReport} {n : Nat}
      {q : State × EventReport} (h : s.world.hasEntity id = false)
      (hrest : RunsOn c rule ids (s, r) n q) : RunsOn c rule (id :: ids) (s, r) n q
  | run {id : EntityId} {ids : List EntityId} {s : State} {r : EventReport} {m n : Nat}
      {q : State × EventReport} (h : s.world.hasEntity id = true)
      (hrun : Steps c (runRule c rule id) (noted (.ruleMatched c.rule id) s) m)
      (hrest : RunsOn c rule ids (attempt c rule id (noted (.ruleMatched c.rule id) s)
        { r with matched := r.matched + 1 }) n q) : RunsOn c rule (id :: ids) (s, r) (m + n) q

inductive RunsAll (c : Scope) : List Rule → State × EventReport → Nat → State × EventReport → Prop
  | nil (p : State × EventReport) : RunsAll c [] p 0 p
  | cons {rule : Rule} {rules : List Rule} {s : State} {r : EventReport} {m n : Nat}
      {q q' : State × EventReport}
      (hrule : RunsOn { c with rule := rule.name } rule
        (candidates { c with rule := rule.name } s.world rule) (s, r) m q)
      (hrest : RunsAll c rules q n q') : RunsAll c (rule :: rules) (s, r) (m + n) q'

theorem attempt_frames (rule : Rule) (id : EntityId) (s : State) (r : EventReport) :
    (attempt c rule id s r).1.frames = (final (runRule c rule id) s).frames := by
  rcases attempt_state c rule id s r with hs | ⟨message, hs⟩
  · rw [hs]
  · rw [hs]
    rfl

theorem runsOn_runOn (rule : Rule) (ids : List EntityId) {s : State} (r : EventReport)
    (hroom : s.frames.length ≤ c.limits.callDepth) :
    (runOn c rule ids s r).1.frames.length ≤ c.limits.callDepth ∧
      ∃ n, RunsOn c rule ids (s, r) n (runOn c rule ids s r) := by
  induction ids generalizing s r with
  | nil => exact ⟨hroom, 0, .nil _⟩
  | cons id ids ih =>
      by_cases h : s.world.hasEntity id = true
      · obtain ⟨hend, m, hm⟩ := halts_runRule c rule id (noted (.ruleMatched c.rule id) s) hroom
        rw [← attempt_frames rule id _ { r with matched := r.matched + 1 }] at hend
        obtain ⟨hend, n, hn⟩ := ih _ hend
        have hrun : runOn c rule (id :: ids) s r = runOn c rule ids _ _ := if_pos h
        rw [hrun]
        exact ⟨hend, m + n, .run h hm hn⟩
      · obtain ⟨hend, n, hn⟩ := ih r hroom
        have hrun : runOn c rule (id :: ids) s r = runOn c rule ids s r := if_neg h
        rw [hrun]
        exact ⟨hend, n, .gone (Bool.eq_false_iff.mpr h) hn⟩

theorem runsAll_runRules (c : Scope) (rules : List Rule) {s : State} (r : EventReport)
    (hroom : s.frames.length ≤ c.limits.callDepth) :
    ∃ n, RunsAll c rules (s, r) n (runRules c rules s r) := by
  induction rules generalizing s r with
  | nil => exact ⟨0, .nil _⟩
  | cons rule rules ih =>
      obtain ⟨hend, m, hm⟩ := runsOn_runOn (c := { c with rule := rule.name }) rule
        (candidates { c with rule := rule.name } s.world rule) r hroom
      obtain ⟨n, hn⟩ := ih _ hend
      rw [runRules]
      dsimp only
      rw [runRules_rule]
      exact ⟨m + n, .cons hm hn⟩

/-- All rules of an event run in finitely many steps, none of which has more frames than the limit
allows. Evaluation ends with the one result that calls have when nothing but the frames bounds
them. A call beyond the limit fails at once. Loops run their bodies no more often than their limits
say. -/
theorem event_ends (c : Scope) (stage : Stage) :
    (∃ n q, RunsAll { c with rule := "" } (c.rules.rulesFor c.event.type) ({ stage with }, {}) n q ∧
      runEvent c.rules c.limits c.event stage = (q.1.toStage, q.2)) ∧
    (∀ (e : Expr) (s : State), s.frames.length ≤ c.limits.callDepth →
      (∃ n, Runs c (fun i => eval c i e) s n (evaluate c e s)) ∧
        ∀ n r, Runs c (fun i => eval c i e) s n r → r = evaluate c e s) ∧
    (∀ (name : String) (params : List Param) (body : Expr) (args : List Value) (s : State),
      params.length = args.length → c.limits.callDepth ≤ s.frames.length →
        invokeAt c c.limits.callDepth name params body args s =
          .error ⟨.limitExceeded (.callDepth c.limits.callDepth (some name)), none⟩ s) ∧
    (∀ (condition : Expr) (body : List Action) (s : State), ∃ k ≤ c.limits.whileIterations,
      WhileRuns c condition body 0 s k (runAction c (.repeatWhile condition body) s)) ∧
    ∀ (name : String) (items : Expr) (body : List Action) (s : State),
      ∃ k ≤ c.limits.loopIterations,
        EachRuns c name items body s k (runAction c (.each name items body) s) := by
  refine ⟨?event, fun e s hroom => ⟨runs_eval c e hroom, fun n r h => ?_⟩, ?call, ?repeats, ?each⟩
  case event =>
    obtain ⟨n, hn⟩ := runsAll_runRules { c with rule := "" } (c.rules.rulesFor c.event.type)
      (s := { stage with }) {} (Nat.zero_le _)
    exact ⟨n, _, hn, rfl⟩
  · exact (h.result (Nat.le_add_left _ _)).symm
  case call =>
    exact fun name params body args s harity hfull => invokeAt_full harity hfull _
  case repeats =>
    intro condition body s
    rw [runAction]
    exact whileRuns_whileLoop _ 0 (Nat.zero_add _) s
  case each =>
    intro name items body s
    rw [runAction]
    exact eachRuns_forEach name items s

def volley : Scope where
  rules :=
    { functions := [("ping", { name := "ping", params := [], body := .call "pong" [] }),
        ("pong", { name := "pong", params := [], body := .call "ping" [] })] }
  limits := { callDepth := 2 }
  event := ⟨0, "tick", Binary64.zero, {}, 0, none⟩

def rally : State := { frames := [[], []] }

theorem volley_ends :
    (∃ n, Runs volley (fun i => eval volley i (.call "ping" [])) {} n
      (.error (((⟨.limitExceeded (.callDepth 2 (some "ping")), none⟩ : Error).inFrame "pong").inFrame
        "ping") {})) ∧
      invokeAt volley 2 "ping" [] (.call "pong" []) [] rally =
        .error ⟨.limitExceeded (.callDepth 2 (some "ping")), none⟩ rally := by
  have hresult : evaluate volley (.call "ping" []) {} =
    .error (((⟨.limitExceeded (.callDepth 2 (some "ping")), none⟩ : Error).inFrame "pong").inFrame
      "ping") {} := rfl
  obtain ⟨-, heval, hcall, -⟩ := event_ends volley {}
  exact ⟨hresult ▸ (heval (.call "ping" []) {} (by decide)).1,
    hcall "ping" [] (.call "pong" []) [] rally rfl (by decide)⟩

end Execution

end RuleSim
