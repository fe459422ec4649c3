import RuleSim.Proofs.Execution.Change
import RuleSim.Proofs.World.Sound

namespace RuleSim

namespace World

def attempt (w : World) : Request → Except Error World
  | .create => .ok w.create.2
  | .createWithId id => w.createWithId id
  | .delete id => w.delete id
  | .setName id name => w.setName id name
  | .addComponent id component init => w.addComponent id component init
  | .removeComponent id component => (w.removeComponent id component).map (·.2)
  | .setField id component field v => w.setField id component field v
  | .mergeField component f => .ok (w.mergeField component f)
  | .register schema => .ok (w.register schema)
  | .clone source target => (w.clone source target).map (·.2)
  | .setBoundFunction id name f => w.setBoundFunction id name f
  | .clearEntities => .ok w.clearEntities
  | .clear => .ok w.clear

theorem perform_eq_orKeep (w : World) (r : Request) : w.perform r = w.orKeep (w.attempt r) := by
  cases r <;> rfl

theorem perform_of_ok {w w' : World} {r : Request} (h : w.attempt r = .ok w') :
    w.perform r = w' := by
  rw [perform_eq_orKeep, h, orKeep]

theorem perform_of_error {w : World} {r : Request} {e : Error} (h : w.attempt r = .error e) :
    w.perform r = w := by
  rw [perform_eq_orKeep, h, orKeep]

def after (w : World) (rs : List Request) : World := rs.foldl perform w

theorem after_append (w : World) (rs rs' : List Request) :
    w.after (rs ++ rs') = (w.after rs).after rs' := List.foldl_append

def Asks (kind : Request → Prop) (w w' : World) : Prop := ∃ rs, (∀ r ∈ rs, kind r) ∧ w' = w.after rs

variable {kind : Request → Prop} {w w' w'' : World}

theorem Asks.refl (w : World) : Asks kind w w := ⟨[], nofun, rfl⟩

theorem Asks.trans (h : Asks kind w w') (h' : Asks kind w' w'') : Asks kind w w'' := by
  obtain ⟨rs, hrs, rfl⟩ := h
  obtain ⟨rs', hrs', rfl⟩ := h'
  exact ⟨rs ++ rs', List.forall_mem_append.mpr ⟨hrs, hrs'⟩, (w.after_append rs rs').symm⟩

theorem asks_perform (w : World) {r : Request} (hr : kind r) : Asks kind w (w.perform r) :=
  ⟨[r], by simpa, rfl⟩

theorem asks_of_ok {r : Request} (hr : kind r) (h : w.attempt r = .ok w') : Asks kind w w' :=
  perform_of_ok h ▸ w.asks_perform hr

theorem Asks.mono {kind' : Request → Prop} (h : Asks kind w w') (hk : ∀ r, kind r → kind' r) :
    Asks kind' w w' :=
  let ⟨rs, hrs, heq⟩ := h
  ⟨rs, fun r hr => hk r (hrs r hr), heq⟩

/-- What relates a world to itself and to what a request makes of it relates it to what all of them
make of it. -/
theorem Asks.relates {R : World → World → Prop} (h : Asks kind w w') (hrefl : ∀ w, R w w)
    (htrans : ∀ u v w, R u v → R v w → R u w) (hstep : ∀ w r, kind r → R w (w.perform r)) :
    R w w' := by
  obtain ⟨rs, hrs, rfl⟩ := h
  induction rs generalizing w with
  | nil => exact hrefl w
  | cons r rs ih =>
      rw [List.forall_mem_cons] at hrs
      exact htrans _ _ _ (hstep w r hrs.1) (ih hrs.2)

theorem Reachable.after (hr : Reachable w) (rs : List Request) : Reachable (w.after rs) := by
  induction rs generalizing w with
  | nil => exact hr
  | cons r rs ih => exact ih (.request r hr)

theorem Asks.reachable (h : Asks kind w w') (hr : Reachable w) : Reachable w' := by
  obtain ⟨rs, -, rfl⟩ := h
  exact hr.after rs

theorem removeEntities_schemas (s : ComponentStore) (ids : List EntityId) :
    (ids.foldl ComponentStore.removeEntity s).schemas = s.schemas := by
  induction ids generalizing s with
  | nil => rfl
  | cons id ids ih => exact ih _

theorem insertRecords_schemas (s : ComponentStore) (id : EntityId)
    (records : List (String × Record)) : (insertRecords s id records).schemas = s.schemas := by
  unfold insertRecords
  induction records generalizing s with
  | nil => rfl
  | cons p records ih => exact ih _

theorem ensure_schemas (s : ComponentStore) (id : EntityId) (component : String) :
    (s.ensure id component).schemas = s.schemas := by
  unfold ComponentStore.ensure
  split <;> rfl

theorem remove_schemas (s : ComponentStore) (id : EntityId) (component : String) :
    (s.remove id component).schemas = s.schemas := by
  unfold ComponentStore.remove
  split <;> rfl

theorem Enters.schemas {id : EntityId} (h : Enters w id w') :
    w'.components.schemas = w.components.schemas := by
  cases h with
  | fresh | chosen => rfl

theorem Effect.schemas {w w' : World} (h : Effect w w') :
    w'.components.schemas = w.components.schemas := by
  cases h with
  | keep | delete | name | attach | bind => rfl
  | enter h => exact h.schemas
  | remove id component => exact remove_schemas ..
  | write id component => exact ensure_schemas ..
  | clone h => exact (insertRecords_schemas ..).trans h.schemas
  | clearEntities => exact removeEntities_schemas ..

structure Keeps (w w' : World) : Prop where
  schemas : w'.components.schemas = w.components.schemas
  sound : w.Sound → w'.Sound

theorem Keeps.refl (w : World) : Keeps w w := ⟨rfl, id⟩

theorem Keeps.trans (h : Keeps w w') (h' : Keeps w' w'') : Keeps w w'' :=
  ⟨h'.schemas.trans h.schemas, h'.sound ∘ h.sound⟩

theorem perform_keeps (w : World) {r : Request} (hr : r.Plain) : Keeps w (w.perform r) :=
  ⟨(w.perform_effect hr).schemas, fun hs => hs.perform r⟩

theorem Asks.keeps (h : Asks Request.Plain w w') : Keeps w w' :=
  h.relates .refl (fun _ _ _ => .trans) fun w _ => w.perform_keeps

/-- The writes of rules are requests. -/
theorem Edit.request (h : Edit w w') : ∃ r : Request, r.Plain ∧ w.attempt r = .ok w' := by
  cases h with
  | create => exact ⟨.create, trivial, rfl⟩
  | delete id h => exact ⟨.delete id, trivial, h⟩
  | addComponent id component init h => exact ⟨.addComponent id component init, trivial, h⟩
  | removeComponent id component h =>
      exact ⟨.removeComponent id component, trivial, by rw [attempt, h, Except.map]⟩
  | setField id component field v h => exact ⟨.setField id component field v, trivial, h⟩
  | clone source h => exact ⟨.clone source none, trivial, by rw [attempt, h, Except.map]⟩

theorem Edit.asks (h : Edit w w') : Asks Request.Plain w w' :=
  let ⟨_, hr, heq⟩ := h.request
  asks_of_ok hr heq

def Asking (kind : Request → Prop) (f : World → Except Error World) : Prop :=
  ∀ w w', f w = .ok w' → Asks kind w w'

theorem asking_attempt {r : Request} (hr : kind r) : Asking kind (·.attempt r) :=
  fun _ _ => asks_of_ok hr

theorem Asking.bind {f g : World → Except Error World} (hf : Asking kind f) (hg : Asking kind g) :
    Asking kind (fun w => f w >>= g) := by
  intro w w' h
  obtain ⟨v, hw, h⟩ := bind_ok_iff.mp h
  exact (hf w v hw).trans (hg v w' h)

theorem asking_sequential : Sequential (Asking kind) where
  done w w' h := by
    obtain rfl := Except.ok.inj h
    exact .refl w
  bind := Asking.bind

inductive Request.Furnishes (d : EntityDecl) (id : EntityId) : Request → Prop
  | name {name : String} (h : d.name = some name) : Furnishes d id (.setName id name)
  | component (component : String) (init : List (String × Value)) :
      Furnishes d id (.addComponent id component init)
  | function (name : String) (f : BoundFunction) : Furnishes d id (.setBoundFunction id name f)

theorem Request.Furnishes.plain {d : EntityDecl} {id : EntityId} {r : Request}
    (h : r.Furnishes d id) : r.Plain := by
  cases h with
  | name | component | function => trivial

theorem furnish_asking (d : EntityDecl) (id : EntityId) :
    Asking (Request.Furnishes d id) (furnish d id) :=
  asking_sequential.furnish
    (fun name hd => asking_attempt (r := .setName id name) (.name hd))
    (fun component init => asking_attempt (r := .addComponent id component init) (.component ..))
    fun name f => asking_attempt (r := .setBoundFunction id name f) (.function ..)

/-- A declared entity comes to life and is furnished. -/
theorem withEntity_enters {d : EntityDecl} {id : EntityId} (h : w.withEntity d = .ok (id, w')) :
    ∃ v, Enters w id v ∧ furnish d id v = .ok w' := by
  have hfurnish {x : EntityId} {v : World}
      (h : (do return (x, ← furnish d x v) : Except Error (EntityId × World)) = .ok (id, w')) :
      x = id ∧ furnish d x v = .ok w' := by
    obtain ⟨u, hf, h⟩ := bind_ok_iff.mp h
    obtain ⟨hid, rfl⟩ := Prod.mk.inj (pure_ok_iff.mp h)
    exact ⟨hid, hf⟩
  rw [withEntity_eq] at h
  cases hd : d.id with
  | none =>
      rw [hd] at h
      obtain ⟨rfl, hf⟩ := hfurnish h
      exact ⟨_, .fresh, hf⟩
  | some n =>
      rw [hd] at h
      dsimp only at h
      rcases w.createWithId_cases (.ofNat n) with ⟨-, e, hc⟩ | ⟨hfree, hc⟩
      · rw [hc] at h
        cases h
      · rw [hc] at h
        obtain ⟨rfl, hf⟩ := hfurnish h
        exact ⟨_, .chosen _ hfree, hf⟩

theorem withEntity_ok {d : EntityDecl} {id : EntityId} (h : w.withEntity d = .ok (id, w')) :
    ∃ v, Enters w id v ∧ Asks (Request.Furnishes d id) v w' := by
  obtain ⟨v, henters, hf⟩ := withEntity_enters h
  exact ⟨v, henters, furnish_asking d id v w' hf⟩

theorem Enters.asks {id : EntityId} (h : Enters w id w') : Asks Request.Plain w w' := by
  cases h with
  | fresh => exact w.asks_perform (r := .create) trivial
  | chosen id hfree =>
      rcases w.createWithId_cases id with ⟨hlive, -⟩ | ⟨-, hc⟩
      · exact absurd hlive hfree
      · exact asks_of_ok (r := .createWithId id) trivial hc

theorem withEntity_asks {d : EntityDecl} {id : EntityId} (h : w.withEntity d = .ok (id, w')) :
    Asks Request.Plain w w' := by
  obtain ⟨v, henters, hasks⟩ := withEntity_ok h
  exact henters.asks.trans (hasks.mono fun _ hr => hr.plain)

theorem spawnAll_asks (w : World) (ds : List EntityDecl) :
    Asks Request.Plain w (final (spawnAll ds) w) := by
  induction ds generalizing w with
  | nil => exact .refl w
  | cons d ds ih =>
      unfold final
      rw [spawnAll_cons]
      cases hd : w.withEntity d with
      | error e => exact .refl w
      | ok p =>
          have hrest := ih p.2
          unfold final at hrest
          dsimp only
          cases hs : spawnAll ds p.2 with
          | ok ids v =>
              rw [hs] at hrest
              exact (withEntity_asks hd).trans hrest
          | error e v =>
              rw [hs] at hrest
              exact (withEntity_asks hd).trans hrest

end World

/-- What rules do to the world is a sequence of requests. -/
theorem Execution.Changes.asks {types : String → Prop} {s t : Stage} (h : Changes types s t) :
    World.Asks World.Request.Plain s.world t.world := by
  induction h with
  | refl => exact .refl _
  | tail _ hc ih =>
      cases hc with
      | world he => exact ih.trans he.asks
      | random | trace | schedule | recur => exact ih

end RuleSim
