import RuleSim.Proofs.Engine.Retraced
import RuleSim.Proofs.Simulation.Reachable

namespace RuleSim

namespace Engine

/-- Related engines answer alike to whatever is asked of them, and stay related. -/
structure Parallel (E : Engine → Engine → Prop) : Prop extends Lockstep E where
  world {e f : Engine} (h : E e f) : f.world = e.world
  arm {e f : Engine} (h : E e f) : Match E e.armWatchdog f.armWatchdog
  schedule {e f : Engine} (h : E e f) (type : String) (delay : Binary64) (payload : Payload) :
    (f.schedule type delay payload).1 = (e.schedule type delay payload).1 ∧
      E (e.schedule type delay payload).2 (f.schedule type delay payload).2
  cancel {e f : Engine} (h : E e f) (id : Nat) :
    (f.cancel id).1 = (e.cancel id).1 ∧ E (e.cancel id).2 (f.cancel id).2
  onContent {α : Type} (x : EStateM Error Content α) : Respects E (onContent x)
  perform {e f : Engine} (h : E e f) (r : Request) : E (e.perform r) (f.perform r)

theorem parallel_retraced : Parallel Retraced where
  toLockstep := lockstep_retraced
  world h := by
    obtain ⟨trace, rfl⟩ := h
    rfl
  arm h := h.arm
  schedule h type delay payload := by
    obtain ⟨trace, rfl⟩ := h
    exact ⟨rfl, trace, rfl⟩
  cancel h id := h.cancel id
  onContent x _ _ h := h.onContent x
  perform h r := h.perform r

theorem lockstep_eq : Lockstep Eq where
  scheduler h := by rw [h]
  config h := by rw [h]
  take? {e f} h := by
    subst h
    cases e.take? with
    | none => exact .inl ⟨rfl, rfl⟩
    | some p => exact .inr ⟨p.1, p.2, p.2, rfl, rfl, rfl⟩
  heartbeat h := by rw [h]
  handle h event := by
    subst h
    exact ⟨rfl, rfl⟩

theorem parallel_eq : Parallel Eq where
  toLockstep := lockstep_eq
  world h := by rw [h]
  arm {e f} h := by
    subst h
    cases e.armWatchdog with
    | ok e' => exact .ok rfl
    | error err => exact .error err
  schedule h type delay payload := by
    subst h
    exact ⟨rfl, rfl⟩
  cancel h id := by
    subst h
    exact ⟨rfl, rfl⟩
  onContent x e f h := by
    subst h
    cases Engine.onContent x e with
    | ok a e' => exact .ok a rfl
    | error err e' => exact .error err rfl
  perform h r := by rw [h]

end Engine

namespace Simulation

variable {α : Type}

inductive Reply where
  | answered (a : Answer)
  | created (ids : List EntityId)
  | merged (report : MergeReport)

def execute : Operation → Host Reply
  | .load m => do
    Simulation.load m
    return .answered .done
  | .setInitialEntities ds => do return .created (← Simulation.setInitialEntities ds)
  | .merge m options => do return .merged (← Simulation.merge m options)
  | .reset => do
    Simulation.reset
    return .answered .done
  | .call c => do return .answered (← perform c)
  | .engine r _ => do
    modifyEngine (·.perform r)
    return .answered .done
  | .world r => do
    modifyEngine (·.modifyWorld (·.perform r))
    return .answered .done

theorem operate_eq (s : Simulation) (o : Operation) : s.operate o = final (execute o) s := by
  cases o with
  | load | setInitialEntities | merge | reset | call => exact (final_bind_pure _ _ s).symm
  | engine | world => rfl

def reply (s : Simulation) (o : Operation) : Except Error Reply :=
  match execute o s with
  | .ok r _ => .ok r
  | .error e _ => .error e

/-- The operation is about what is traced and who is told. -/
def Operation.isObserving : Operation → Bool
  | .call c => c.isObserving
  | .engine (.setTracing _) _ => true
  | _ => false

def core (s : Simulation) : Simulation :=
  { s with
    config := { s.config with trace := {} }
    engine := { s.engine with trace := {} }
    subscribers := {}
    trace := {} }

/-- The replies to the operations that are not about observation, and what each of them leaves. -/
def course : Simulation → List Operation → List (Except Error Reply × Simulation)
  | _, [] => []
  | s, o :: ops =>
    if o.isObserving then course (s.operate o) ops
    else (s.reply o, (s.operate o).core) :: course (s.operate o) ops

def Operation.muted : Operation → Operation
  | .call (.subscribe _) => .call (.subscribe fun _ _ => .done)
  | .call (.subscribeTrace _) => .call (.subscribeTrace fun _ _ => .done)
  | o => o

structure Parallel (E : Engine → Engine → Prop) (R : Simulation → Simulation → Prop) : Prop where
  engines : Engine.Parallel E
  engine {s t : Simulation} (h : R s t) : E s.engine t.engine
  phase {s t : Simulation} (h : R s t) : t.phase = s.phase
  modules {s t : Simulation} (h : R s t) : t.modules = s.modules
  initialEntities {s t : Simulation} (h : R s t) : t.initialEntities = s.initialEntities
  setEngine {s t : Simulation} (h : R s t) {e f : Engine} (hef : E e f) :
    R { s with engine := e } { t with engine := f }
  setPhase {s t : Simulation} (h : R s t) (phase : Phase) : R { s with phase } { t with phase }
  setLoaded {s t : Simulation} (h : R s t) (modules : List String)
    (initialEntities : List EntityDecl) :
    R { s with modules, initialEntities } { t with modules, initialEntities }
  clearTrace {s t : Simulation} (h : R s t) :
    R { s with trace := s.trace.clear } { t with trace := t.trace.clear }
  notify (n : Notification) : Respects R (notify n)
  flushTrace : Respects R flushTrace

namespace Parallel

variable {E : Engine → Engine → Prop} {R : Simulation → Simulation → Prop} (hR : Parallel E R)
include hR

theorem modifyEngine {f : Engine → Engine} (hf : ∀ {e e' : Engine}, E e e' → E (f e) (f e')) :
    Respects R (modifyEngine f) :=
  respects_modify fun _ _ h => hR.setEngine h (hf (hR.engine h))

theorem request (r : Engine.Request) : Respects R (Simulation.modifyEngine (·.perform r)) :=
  hR.modifyEngine fun h => hR.engines.perform h r

theorem onContent (x : EStateM Error Content α) : Respects R (onEngine (Engine.onContent x)) := by
  intro s t h
  have hx := hR.engines.onContent x _ _ (hR.engine h)
  unfold onEngine
  generalize Engine.onContent x s.engine = r, Engine.onContent x t.engine = r' at hx
  cases hx with
  | ok a hef => exact .ok a (hR.setEngine h hef)
  | error e hef => exact .error e (hR.setEngine h hef)

theorem arm : Respects R armWatchdog := by
  intro s t h
  have harm := hR.engines.arm (hR.engine h)
  rw [armWatchdog, get_bind, get_bind]
  generalize s.engine.armWatchdog = x, t.engine.armWatchdog = y at harm
  cases harm with
  | ok hef => exact .ok _ (hR.setEngine h hef)
  | error e => exact .error e h

theorem setField (id : EntityId) (component field : String) (v : Value) :
    Respects R (setField id component field v) := by
  intro s t h
  unfold Simulation.setField Simulation.world
  rw [get_bind, get_bind, hR.engines.world (hR.engine h)]
  cases s.engine.world.setField id component field v with
  | ok w => exact .ok _ (hR.setEngine h (hR.engines.perform (hR.engine h) (.modifyWorld fun _ => w)))
  | error e => exact .error e h

theorem lockstep : Lockstep R where
  phase := hR.phase
  scheduler h := hR.engines.scheduler (hR.engine h)
  setPhase := hR.setPhase
  notify := hR.notify
  flushTrace := hR.flushTrace
  arm := hR.arm
  disarm := hR.request .disarm
  engineStep h :=
    have hstep := hR.engines.step (hR.engine h)
    ⟨hstep.1, hR.setEngine h hstep.2⟩
  schedule h type delay payload :=
    have hset := hR.engines.schedule (hR.engine h) type delay payload
    ⟨hset.1, hR.setEngine h hset.2⟩
  cancel h id :=
    have hset := hR.engines.cancel (hR.engine h) id
    ⟨hset.1, hR.setEngine h hset.2⟩
  setField := hR.setField

theorem load (m : Module) : Respects R (load m) := by
  refine (hR.lockstep.requireNotRunning _).bind fun _ =>
    (respects_modify fun s t h => ?_).bind fun _ s t h => ?_
  · exact hR.clearTrace (hR.setEngine h (hR.engines.perform (hR.engine h) .clear))
  · have hinstall := hR.engines.onContent (Content.install m) _ _ (hR.engine h)
    rw [get_bind, get_bind]
    unfold Engine.install
    generalize Engine.onContent (Content.install m) s.engine = r,
      Engine.onContent (Content.install m) t.engine = r' at hinstall
    cases hinstall with
    | ok report hef =>
        apply (hR.lockstep.enter .idle).bind fun _ => hR.notify _
        exact hR.setLoaded (hR.setEngine h hef) _ _
    | error e hef =>
        exact .error e (hR.setLoaded (hR.setEngine h (hR.engines.perform hef .clear)) [] [])

theorem setInitialEntities (ds : List EntityDecl) : Respects R (setInitialEntities ds) := by
  refine (hR.lockstep.requireNotRunning _).bind fun _ =>
    (respects_modify fun s t h => ?_).bind fun _ => hR.onContent _
  have hclear := hR.engines.perform (hR.engine h) (.modifyWorld World.clearEntities)
  rw [hR.modules h]
  exact hR.setLoaded (hR.setEngine h hclear) s.modules ds

theorem merge (m : Module) (options : MergeOptions) : Respects R (merge m options) := by
  refine (hR.lockstep.requireNotRunning _).bind fun _ => (hR.onContent _).bind fun report =>
    (respects_modify fun s t h => ?_).bind fun _ => (hR.notify _).bind fun _ => respects_pure _
  rw [hR.modules h, hR.initialEntities h]
  exact hR.setLoaded h _ _

theorem reset : Respects R reset := by
  refine (respects_modify fun s t h => ?_).bind fun _ =>
    respects_get_bind (fun s t h => ?_) fun s => (hR.onContent _).bind fun _ =>
      (hR.lockstep.enter .idle).bind fun _ => hR.notify _
  · exact hR.clearTrace (hR.setEngine h (hR.engines.perform (hR.engine h) .reset))
  · rw [hR.initialEntities h]

theorem execute {o : Operation} (ho : o.isObserving = false) : Respects R (execute o) := by
  cases o with
  | load m => exact (hR.load m).bind fun _ => respects_pure _
  | setInitialEntities ds => exact (hR.setInitialEntities ds).bind fun _ => respects_pure _
  | merge m options => exact (hR.merge m options).bind fun _ => respects_pure _
  | reset => exact hR.reset.bind fun _ => respects_pure _
  | call c => exact (hR.lockstep.perform ho).bind fun _ => respects_pure _
  | engine r h => exact (hR.request r).bind fun _ => respects_pure _
  | world r => exact (hR.request (.modifyWorld (·.perform r))).bind fun _ => respects_pure _

theorem reply {s t : Simulation} (h : R s t) {o : Operation} (ho : o.isObserving = false) :
    t.reply o = s.reply o := by
  have ho := hR.execute ho s t h
  unfold Simulation.reply
  generalize Simulation.execute o s = x, Simulation.execute o t = y at ho
  cases ho with
  | ok | error => rfl

theorem operate {s t : Simulation} (h : R s t) {o : Operation} (ho : o.isObserving = false) :
    R (s.operate o) (t.operate o) := by
  rw [operate_eq, operate_eq]
  exact (hR.execute ho s t h).final

end Parallel

/-- The same simulation, with other records, subscribers and settings of what is traced. -/
def SameCore (s t : Simulation) : Prop := ∃ setting sink subscribers trace,
  t = { s with
    config := { s.config with trace := setting }
    engine := { s.engine with trace := sink }
    subscribers, trace }

theorem SameCore.core_eq {s t : Simulation} (h : SameCore s t) : t.core = s.core := by
  obtain ⟨setting, sink, subscribers, trace, rfl⟩ := h
  rfl

theorem parallel_sameCore : Parallel Engine.Retraced SameCore where
  engines := Engine.parallel_retraced
  engine h := by
    obtain ⟨setting, sink, subscribers, trace, rfl⟩ := h
    exact ⟨sink, rfl⟩
  phase h := by
    obtain ⟨setting, sink, subscribers, trace, rfl⟩ := h
    rfl
  modules h := by
    obtain ⟨setting, sink, subscribers, trace, rfl⟩ := h
    rfl
  initialEntities h := by
    obtain ⟨setting, sink, subscribers, trace, rfl⟩ := h
    rfl
  setEngine h _ _ hef := by
    obtain ⟨setting, sink, subscribers, trace, rfl⟩ := h
    obtain ⟨sink, rfl⟩ := hef
    exact ⟨setting, sink, subscribers, trace, rfl⟩
  setPhase h phase := by
    obtain ⟨setting, sink, subscribers, trace, rfl⟩ := h
    exact ⟨setting, sink, subscribers, trace, rfl⟩
  setLoaded h modules initialEntities := by
    obtain ⟨setting, sink, subscribers, trace, rfl⟩ := h
    exact ⟨setting, sink, subscribers, trace, rfl⟩
  clearTrace h := by
    obtain ⟨setting, sink, subscribers, trace, rfl⟩ := h
    exact ⟨setting, sink, subscribers, _, rfl⟩
  notify n := respects_modify <| by
    rintro s _ ⟨setting, sink, subscribers, trace, rfl⟩
    exact ⟨setting, sink, _, trace, rfl⟩
  flushTrace := by
    rintro s _ ⟨setting, sink, subscribers, trace, rfl⟩
    obtain ⟨_, _, _, hs⟩ := flushTrace_eq s
    obtain ⟨_, _, _, ht⟩ := flushTrace_eq { s with
      config := { s.config with trace := setting }
      engine := { s.engine with trace := sink }
      subscribers, trace }
    rw [hs, ht]
    exact .ok _ ⟨setting, _, _, _, rfl⟩

/-- An operation about observation leaves the core as it is. -/
theorem SameCore.observing {s t : Simulation} (h : SameCore s t) {o : Operation}
    (ho : o.isObserving = true) : SameCore (s.operate o) t := by
  obtain ⟨setting, sink, subscribers, trace, rfl⟩ := h
  cases o with
  | load | setInitialEntities | merge | reset | world => cases ho
  | call c =>
      cases c with
      | subscribe | subscribeTrace | unsubscribe | setTracing | teardown =>
          exact ⟨setting, sink, subscribers, trace, rfl⟩
      | _ => cases ho
  | engine r =>
      cases r with
      | setTracing on => exact ⟨setting, sink, subscribers, trace, rfl⟩
      | _ => cases ho

theorem SameCore.course {s t : Simulation} (h : SameCore s t) (ops : List Operation) :
    Simulation.course s ops = Simulation.course t (ops.filter fun o => !o.isObserving) := by
  induction ops generalizing s t with
  | nil => rfl
  | cons o ops ih =>
      rw [Simulation.course, List.filter_cons]
      cases ho : o.isObserving with
      | true => exact ih (h.observing ho)
      | false =>
          have hafter := parallel_sameCore.operate h ho
          rw [Bool.not_false, if_pos rfl, Simulation.course, ho, parallel_sameCore.reply h ho,
            hafter.core_eq, ih hafter]

end Simulation

namespace Subscribers

def told (s : Subscribers) : List (Nat × News) := s.deliveries.map fun d => (d.recipient, d.news)

structure SameNews (u v : Subscribers) : Prop where
  nextId : v.nextId = u.nextId
  lifecycle : v.lifecycle.map (·.id) = u.lifecycle.map (·.id)
  trace : v.trace.map (·.id) = u.trace.map (·.id)
  told : v.told = u.told

variable {α : Type}

/-- A telling goes by the identifiers of the subscribers only. -/
theorem tell_news (news : α → News) (a : α) (deliveries : List Delivery)
    (subscribers : List (Subscriber α)) :
    (tell news a deliveries subscribers).1.map (·.id) = subscribers.map (·.id) ∧
      (tell news a deliveries subscribers).2.map (fun d => (d.recipient, d.news)) =
        (subscribers.map (·.id)).foldl (fun told id => (id, news a) :: told)
          (deliveries.map fun d => (d.recipient, d.news)) := by
  induction subscribers generalizing deliveries with
  | nil => exact ⟨rfl, rfl⟩
  | cons s subscribers ih =>
      obtain ⟨hids, htold⟩ := ih (⟨s.id, news a, s.react s.calls a⟩ :: deliveries)
      exact ⟨congrArg (s.id :: ·) hids, htold⟩

namespace SameNews

variable {u v : Subscribers} (h : SameNews u v)
include h

theorem notify (n : Notification) : SameNews (u.notify n) (v.notify n) := by
  obtain ⟨hids, htold⟩ := tell_news .note n u.deliveries u.lifecycle
  obtain ⟨hids', htold'⟩ := tell_news .note n v.deliveries v.lifecycle
  refine ⟨h.nextId, (hids'.trans h.lifecycle).trans hids.symm, h.trace, ?_⟩
  refine (htold'.trans ?_).trans htold.symm
  have htold := h.told
  unfold Subscribers.told at htold
  rw [h.lifecycle, htold]

theorem notifyTrace (r : TraceRecord) : SameNews (u.notifyTrace r) (v.notifyTrace r) := by
  obtain ⟨hids, htold⟩ := tell_news .trace r u.deliveries u.trace
  obtain ⟨hids', htold'⟩ := tell_news .trace r v.deliveries v.trace
  refine ⟨h.nextId, h.lifecycle, (hids'.trans h.trace).trans hids.symm, ?_⟩
  refine (htold'.trans ?_).trans htold.symm
  have htold := h.told
  unfold Subscribers.told at htold
  rw [h.trace, htold]

theorem subscribe (react react' : Nat → Notification → Reaction) :
    SameNews (u.subscribe react).2 (v.subscribe react').2 := by
  refine ⟨congrArg (· + 1) h.nextId, ?_, h.trace, h.told⟩
  simp [Subscribers.subscribe, h.lifecycle, h.nextId]

theorem subscribeTrace (react react' : Nat → TraceRecord → Reaction) :
    SameNews (u.subscribeTrace react).2 (v.subscribeTrace react').2 := by
  refine ⟨congrArg (· + 1) h.nextId, h.lifecycle, ?_, h.told⟩
  simp [Subscribers.subscribeTrace, h.trace, h.nextId]

theorem unsubscribe (id : Nat) : SameNews (u.unsubscribe id).2 (v.unsubscribe id).2 := by
  have hfilter {β : Type} {xs ys : List (Subscriber β)} (hids : ys.map (·.id) = xs.map (·.id)) :
      (ys.filter (·.id ≠ id)).map (·.id) = (xs.filter (·.id ≠ id)).map (·.id) := by
    have hids := congrArg (List.filter (· ≠ id)) hids
    rwa [List.filter_map, List.filter_map] at hids
  exact ⟨h.nextId, hfilter h.lifecycle, hfilter h.trace, h.told⟩

end SameNews

end Subscribers

namespace Simulation

/-- The same simulation, with subscribers that may react in other ways. -/
def Muted (s t : Simulation) : Prop :=
  ∃ subscribers, t = { s with subscribers } ∧ s.subscribers.SameNews subscribers

theorem Muted.refl (s : Simulation) : Muted s s := ⟨s.subscribers, rfl, rfl, rfl, rfl, rfl⟩

theorem capture_muted {s t : Simulation} (h : Muted s t) (time : Binary64)
    (events : List TraceEvent) :
    Muted (events.foldl (capture time) s) (events.foldl (capture time) t) := by
  induction events generalizing s t with
  | nil => exact h
  | cons e events ih =>
      apply ih
      obtain ⟨subscribers, rfl, hnews⟩ := h
      exact ⟨_, rfl, hnews.notifyTrace _⟩

theorem parallel_muted : Parallel Eq Muted where
  engines := Engine.parallel_eq
  engine h := by
    obtain ⟨subscribers, rfl, hnews⟩ := h
    rfl
  phase h := by
    obtain ⟨subscribers, rfl, hnews⟩ := h
    rfl
  modules h := by
    obtain ⟨subscribers, rfl, hnews⟩ := h
    rfl
  initialEntities h := by
    obtain ⟨subscribers, rfl, hnews⟩ := h
    rfl
  setEngine h _ _ hef := by
    obtain ⟨subscribers, rfl, hnews⟩ := h
    rw [hef]
    exact ⟨subscribers, rfl, hnews⟩
  setPhase h phase := by
    obtain ⟨subscribers, rfl, hnews⟩ := h
    exact ⟨subscribers, rfl, hnews⟩
  setLoaded h modules initialEntities := by
    obtain ⟨subscribers, rfl, hnews⟩ := h
    exact ⟨subscribers, rfl, hnews⟩
  clearTrace h := by
    obtain ⟨subscribers, rfl, hnews⟩ := h
    exact ⟨subscribers, rfl, hnews⟩
  notify n := respects_modify <| by
    rintro s _ ⟨subscribers, rfl, hnews⟩
    exact ⟨_, rfl, hnews.notify n⟩
  flushTrace := respects_modify <| by
    rintro s _ ⟨subscribers, rfl, hnews⟩
    exact capture_muted (s := { s with engine := { s.engine with trace := s.engine.trace.drain.2 } })
      ⟨subscribers, rfl, hnews⟩ s.time s.engine.trace.drain.1

theorem Muted.operate {s t : Simulation} (h : Muted s t) (o : Operation) :
    Muted (s.operate o) (t.operate o.muted) := by
  cases ho : o.isObserving with
  | false =>
      have hmuted : o.muted = o := by
        cases o with
        | call c => cases c with
          | subscribe | subscribeTrace => cases ho
          | _ => rfl
        | _ => rfl
      rw [hmuted]
      exact parallel_muted.operate h ho
  | true =>
      obtain ⟨subscribers, rfl, hnews⟩ := h
      cases o with
      | load | setInitialEntities | merge | reset | world => cases ho
      | call c =>
          cases c with
          | subscribe react => exact ⟨_, rfl, hnews.subscribe react _⟩
          | subscribeTrace react => exact ⟨_, rfl, hnews.subscribeTrace react _⟩
          | unsubscribe id => exact ⟨_, rfl, hnews.unsubscribe id⟩
          | setTracing on => exact ⟨_, rfl, hnews⟩
          | teardown => exact ⟨_, rfl, hnews.nextId, rfl, rfl, hnews.told⟩
          | _ => cases ho
      | engine r =>
          cases r with
          | setTracing on => exact ⟨_, rfl, hnews⟩
          | _ => cases ho

theorem Muted.foldl {s t : Simulation} (h : Muted s t) (ops : List Operation) :
    Muted (ops.foldl Simulation.operate s)
      ((ops.map Operation.muted).foldl Simulation.operate t) := by
  induction ops generalizing s t with
  | nil => exact h
  | cons o ops ih => exact ih (h.operate o)

/-- With any settings of what is traced, and with any subscribers that come and go on the way, all
other operations are answered as without any of them, and leave the same simulation but for its
records. Who is told what does not depend on how anyone reacts. -/
theorem observation_inert (config : Config) (ops : List Operation) :
    course (new config) ops =
      course (new { config with trace := {} }) (ops.filter fun o => !o.isObserving) ∧
    ((ops.map Operation.muted).foldl operate (new config)).subscribers.told =
      (ops.foldl operate (new config)).subscribers.told := by
  constructor
  · have hnew : SameCore (new config) (new { config with trace := {} }) := ⟨_, _, _, _, rfl⟩
    exact hnew.course ops
  · obtain ⟨subscribers, hsame, hnews⟩ := (Muted.refl (new config)).foldl ops
    rw [hsame]
    exact hnews.told

end Simulation

end RuleSim
