import RuleSim.Proofs.World.Schemas
import RuleSim.Proofs.World.Spared

namespace RuleSim

namespace ComponentStore

def Apart (entity : EntityId) (s t : ComponentStore) : Prop :=
  ∀ e ≠ entity, t.components e = s.components e ∧ ∀ c, t.get? e c = s.get? e c

variable {s t u : ComponentStore} {entity : EntityId} {component : String}

theorem Apart.refl (entity : EntityId) (s : ComponentStore) : Apart entity s s :=
  fun _ _ => ⟨rfl, fun _ => rfl⟩

theorem Apart.trans (h : Apart entity s t) (h' : Apart entity t u) : Apart entity s u :=
  fun e he => ⟨(h' e he).1.trans (h e he).1, fun c => ((h' e he).2 c).trans ((h e he).2 c)⟩

theorem apart_insert (s : ComponentStore) (entity : EntityId) (component : String)
    (record : Record) : Apart entity s (s.insert entity component record) := by
  intro e he
  refine ⟨(components_insert ..).trans (if_neg he), fun c => ?_⟩
  exact (get?_insert ..).trans (if_neg fun h => he h.1)

theorem apart_remove (s : ComponentStore) (entity : EntityId) (component : String) :
    Apart entity s (s.remove entity component) := by
  by_cases h : s.has entity component = true
  · intro e he
    refine ⟨(components_remove _ _ _ _ h).trans (if_neg he), fun c => ?_⟩
    exact (get?_remove _ _ _ _ _ h).trans (if_neg fun h => he h.1)
  · rw [remove, if_neg h]
    exact .refl entity s

theorem apart_removeEntity (s : ComponentStore) (entity : EntityId) :
    Apart entity s (s.removeEntity entity) := fun e he =>
  ⟨(components_removeEntity ..).trans (if_neg he), fun c => s.get?_removeEntity_of_ne entity e c he⟩

theorem apart_ensure (s : ComponentStore) (entity : EntityId) (component : String) :
    Apart entity s (s.ensure entity component) := by
  unfold ensure
  split
  · exact .refl entity s
  · exact s.apart_insert entity component _

theorem apart_write (s : ComponentStore) (entity : EntityId) (component field : String)
    (v : Value) : Apart entity s (s.write entity component field v) := fun e he =>
  ⟨rfl, fun c => (s.get?_write entity e component c field v).trans (if_neg fun h => he h.1)⟩

theorem apart_insertRecords (s : ComponentStore) (entity : EntityId)
    (records : List (String × Record)) : Apart entity s (World.insertRecords s entity records) := by
  unfold World.insertRecords
  induction records generalizing s with
  | nil => exact .refl entity s
  | cons p records ih => exact (s.apart_insert entity p.1 p.2).trans (ih _)

theorem get?_insertRecords (s : ComponentStore) (entity : EntityId) {records : Table String Record}
    (h : records.keys.Nodup) (c : String) : (World.insertRecords s entity records).get? entity c =
      (records.find? c).or (s.get? entity c) := by
  unfold World.insertRecords
  induction records generalizing s with
  | nil => rfl
  | cons p records ih =>
      rw [Table.keys_cons, List.nodup_cons] at h
      rw [List.foldl_cons, ih _ h.2, get?_insert, Table.find?]
      by_cases hc : c = p.1
      · rw [hc, Table.find?_eq_none_of_notMem h.1]
        simp
      · simp [hc]

end ComponentStore

namespace World

variable {w v w' w'' : World} {source id a b x : EntityId} {target : Option EntityId}
  {given : String → Prop} {r : Request} {rs : List Request}

structure Belongings where
  components : List String
  record? : String → Option Record
  functions : Fields BoundFunction

def belongings (w : World) (id : EntityId) : Belongings :=
  ⟨w.componentsOf id, w.component? id, w.functionsOf id⟩

theorem belongings_congr (hcomponents : w'.componentsOf b = w.componentsOf a)
    (hrecords : ∀ component, w'.component? b component = w.component? a component)
    (hfunctions : w'.functionsOf b = w.functionsOf a) : w'.belongings b = w.belongings a := by
  rw [belongings, belongings, hcomponents, funext hrecords, hfunctions]

theorem Spared.belongings (h : Spared id w w') : w'.belongings id = w.belongings id :=
  belongings_congr h.components h.record h.functions

structure Unchanged (id : EntityId) (w w' : World) : Prop where
  live : w'.hasEntity id = w.hasEntity id
  belongings : w'.belongings id = w.belongings id

theorem Unchanged.refl (id : EntityId) (w : World) : Unchanged id w w := ⟨rfl, rfl⟩

theorem Unchanged.trans (h : Unchanged id w w') (h' : Unchanged id w' w'') : Unchanged id w w'' :=
  ⟨h'.live.trans h.live, h'.belongings.trans h.belongings⟩

theorem Unchanged.mem_live (h : Unchanged id w w') (hid : id ∈ w.entities.live) :
    id ∈ w'.entities.live := of_decide_eq_true (h.live.trans (decide_eq_true hid))

theorem Unchanged.field? (h : Unchanged id w w') (component field : String) :
    w'.field? id component field = w.field? id component field := by
  have hrecord := congrFun (congrArg Belongings.record? h.belongings) component
  exact congrArg (Option.bind · (Table.find? · field)) hrecord

/-- The worlds differ in one entity at most, and in names that were given to it. -/
structure Apart (id : EntityId) (given : String → Prop) (w w' : World) : Prop where
  live : ∀ x ≠ id, (x ∈ w'.entities.live ↔ x ∈ w.entities.live)
  components : w.components.Apart id w'.components
  bound : ∀ x ≠ id, w'.bound.find? x = w.bound.find? x
  names : ∀ name, ¬ given name → ∀ x ≠ id, ((name, x) ∈ w'.names ↔ (name, x) ∈ w.names)

namespace Apart

theorem refl (w : World) : Apart id given w w where
  live _ _ := Iff.rfl
  components := .refl id w.components
  bound _ _ := rfl
  names _ _ _ _ := Iff.rfl

theorem trans (h : Apart id given w w') (h' : Apart id given w' w'') : Apart id given w w'' where
  live x hx := (h'.live x hx).trans (h.live x hx)
  components := h.components.trans h'.components
  bound x hx := (h'.bound x hx).trans (h.bound x hx)
  names name hname x hx := (h'.names name hname x hx).trans (h.names name hname x hx)

theorem touch (h : Apart id given w w') : Apart id given w w'.touch :=
  ⟨h.live, h.components, h.bound, h.names⟩

theorem unchanged (h : Apart id given w w') (hne : x ≠ id) : Unchanged x w w' where
  live := decide_eq_decide.mpr (h.live x hne)
  belongings := by
    obtain ⟨hcomponents, hrecords⟩ := h.components x hne
    exact belongings_congr hcomponents hrecords (congrArg (Option.getD · []) (h.bound x hne))

end Apart

theorem apart_components (w : World) {s : ComponentStore} (h : w.components.Apart id s) :
    Apart id given w { w with components := s } where
  live _ _ := Iff.rfl
  components := h
  bound _ _ := rfl
  names _ _ _ _ := Iff.rfl

theorem apart_bound (w : World) (id : EntityId) (fs : Fields BoundFunction) :
    Apart id given w { w with bound := w.bound.insert id fs } where
  live _ _ := Iff.rfl
  components := .refl id w.components
  bound _ hx := (Table.find?_insert ..).trans (if_neg hx)
  names _ _ _ _ := Iff.rfl

theorem apart_name (w : World) (id : EntityId) {name : String} (hname : given name) :
    Apart id given w { w with names := w.names.insert name id } where
  live _ _ := Iff.rfl
  components := .refl id w.components
  bound _ _ := rfl
  names other hother x _ := by
    have hne : other ≠ name := fun heq => hother (heq ▸ hname)
    exact Table.mem_insert_of_ne hne

theorem Enters.names (h : Enters w id v) : v.names = w.names := by
  cases h with
  | fresh | chosen => rfl

theorem Enters.apart (h : Enters w id v) : Apart id given w v where
  live x hx := (h.live x).trans (or_iff_right hx)
  components := by
    cases h with
    | fresh | chosen => exact .refl _ w.components
  bound _ _ := by
    cases h with
    | fresh | chosen => rfl
  names name _ x _ := by rw [h.names]

theorem Admits.not_live (h : Admits w target id v)
    (hroom : target = none → w.entities.live.length < 2 ^ 64) : id ∉ w.entities.live := by
  cases h with
  | fresh => exact EntityStore.spawn_fresh (hroom rfl)
  | chosen id h => exact h

theorem Admits.eq_target (h : Admits w target id v) {t : EntityId} (ht : target = some t) :
    id = t := by
  cases h with
  | fresh => cases ht
  | chosen id => exact Option.some.inj ht

theorem clone_ok (h : w.clone source target = .ok (id, w')) :
    source ∈ w.entities.live ∧ ∃ v, Admits w target id v ∧ w' = v.copied source id := by
  rcases w.clone_cases source target with ⟨-, he⟩ | ⟨-, x, -, -, he⟩ | ⟨hs, x, v, hv, he⟩
  · cases h.symm.trans he
  · cases h.symm.trans he
  · cases h.symm.trans he
    exact ⟨hs, v, hv, rfl⟩

theorem apart_copied (w : World) (source id : EntityId) :
    Apart id given w (w.copied source id) := by
  have hrecords := w.components.apart_insertRecords id (w.recordsOf source)
  cases hb : w.bound.find? source with
  | none =>
      rw [copied, hb]
      exact w.apart_components hrecords
  | some fs =>
      rw [copied, hb]
      exact (w.apart_components hrecords).trans (apart_bound _ id fs)

theorem Sound.find?_recordsOf (h : Sound w) (id : EntityId) (component : String) :
    Table.find? (w.recordsOf id) component = w.component? id component := by
  rw [recordsOf, Table.find?_filterMap]
  split
  · rfl
  · next hc =>
      have hhas : w.components.has id component ≠ true := fun hhas =>
        hc ((h.indexed id component).mpr hhas)
      exact (Option.not_isSome_iff_eq_none.mp hhas).symm

theorem Blank.component?_copied (h : Blank w id) (hs : Sound w) (ho : Ordered w)
    (component : String) :
    (w.copied source id).component? id component = w.component? source component := by
  have hnone : w.components.get? id component = none := h.record component
  have hnodup := (ho.recordsOf source).1.nodup
  refine (w.components.get?_insertRecords id hnodup component).trans ?_
  rw [hs.find?_recordsOf, hnone, Option.or_none]

theorem Blank.functionsOf_copied (h : Blank w id) :
    (w.copied source id).functionsOf id = w.functionsOf source := by
  have hnone := h.functions
  unfold functionsOf copied at *
  cases hb : w.bound.find? source with
  | none => exact hnone
  | some fs => exact congrArg (Option.getD · []) ((Table.find?_insert ..).trans (if_pos rfl))

/-- The index lists the same components where there are the same records. -/
theorem componentsOf_congr (hs : Sound w) (ho : Ordered w) (hs' : Sound w') (ho' : Ordered w')
    (h : ∀ component, w'.component? b component = w.component? a component) :
    w'.componentsOf b = w.componentsOf a := by
  apply (ho'.components.components b).ext (ho.components.components a)
  intro component
  have hget := h component
  unfold component? at hget
  rw [hs'.indexed b component, hs.indexed a component, ComponentStore.has, ComponentStore.has, hget]

/-- An entity of which nothing is known gets what the source has. -/
theorem Blank.belongings_copied (h : Blank w id) (hs : Sound w) (ho : Ordered w)
    (hs' : Sound (w.copied source id)) (ho' : Ordered (w.copied source id)) :
    (w.copied source id).belongings id = w.belongings source := by
  have hrecords (component : String) :
      (w.copied source id).component? id component = w.component? source component :=
    h.component?_copied hs ho component
  exact belongings_congr (componentsOf_congr hs ho hs' ho' hrecords) hrecords h.functionsOf_copied

structure Copies (source id : EntityId) (w w' : World) : Prop where
  source_live : w.hasEntity source = true
  fresh : w.hasEntity id = false
  live : w'.hasEntity id = true
  belongings : w'.belongings id = w.belongings source
  nameless : w'.nameOf? id = none ∧ ∀ name, w'.entityByName? name ≠ some id
  others : ∀ x ≠ id, Unchanged x w w'
  names : w'.names = w.names ∧ ∀ name, w'.entityByName? name = w.entityByName? name
  schemas : w'.components.schemas = w.components.schemas

theorem Enters.blank (h : Enters w id v) (hs : Sound w) (hfree : id ∉ w.entities.live) :
    Blank v id := by
  cases h with
  | fresh | chosen => exact hs.blank hfree rfl rfl rfl

theorem Sound.entityByName?_eq (hs : Sound w) (hn : w'.names = w.names)
    (hlive : ∀ x ∈ w.entities.live, x ∈ w'.entities.live) (name : String) :
    w'.entityByName? name = w.entityByName? name := by
  unfold entityByName?
  rw [hn]
  cases hf : w.names.find? name with
  | none => rfl
  | some x =>
      have hx : x ∈ w.entities.live := hs.names _ (Table.mem_of_find? hf)
      have h : w.hasEntity x = true := decide_eq_true hx
      have h' : w'.hasEntity x = true := decide_eq_true (hlive x hx)
      rw [Option.filter_some_pos h, Option.filter_some_pos h']

theorem Reachable.cloned (hr : Reachable w) (h : w.clone source target = .ok (id, w')) :
    Reachable w' := by
  have hperform : w.perform (.clone source target) = w' :=
    perform_of_ok (by rw [attempt, h, Except.map])
  exact hperform ▸ .request _ hr

theorem Reachable.copies (hr : Reachable w)
    (hroom : target = none → w.entityIds.length < 2 ^ 64)
    (h : w.clone source target = .ok (id, w')) : Copies source id w w' := by
  have hr' := hr.cloned h
  obtain ⟨hsource, v, hadmits, rfl⟩ := clone_ok h
  have hs := hr.sound
  have hfree := hadmits.not_live hroom
  have hv := hadmits.enters
  have hblank := hv.blank hs hfree
  have hcopied := hblank.belongings_copied (hs.enter hv) (hr.ordered.enter hv) hr'.sound hr'.ordered
  have hapart : Apart id (fun _ => False) w (v.copied source id) :=
    hv.apart.trans (v.apart_copied source id)
  have hbyName : ∀ name, (v.copied source id).entityByName? name = w.entityByName? name :=
    hs.entityByName?_eq hv.names fun x hx => (hv.live x).mpr (.inr hx)
  refine
    { source_live := decide_eq_true hsource
      fresh := decide_eq_false hfree
      live := decide_eq_true ((hv.live id).mpr (.inl rfl))
      belongings := hcopied.trans (hv.spares source).belongings
      nameless := ⟨hblank.name, fun name => ?_⟩
      others := fun x hx => hapart.unchanged hx
      names := ⟨hv.names, hbyName⟩
      schemas := (insertRecords_schemas ..).trans hv.schemas }
  rw [hbyName]
  exact (hs.blank hfree rfl rfl rfl).byName name

/-- The request is about the entity and writes to no other. -/
def Request.WritesTo (id : EntityId) : Request → Prop
  | .createWithId x | .delete x | .setName x _ | .addComponent x _ _ | .removeComponent x _
  | .setField x _ _ _ | .setBoundFunction x _ _ | .clone _ (some x) => x = id
  | _ => False

theorem delete_apart (w : World) (id : EntityId) : Apart id given w (w.perform (.delete id)) := by
  rcases w.delete_cases id with ⟨-, e, h⟩ | ⟨-, h⟩
  · rw [perform, h]
    exact .refl w
  · rw [perform, h]
    exact
      { live := fun x hx => (OrderedSet.mem_erase ..).trans (and_iff_right hx)
        components := w.components.apart_removeEntity id
        bound := fun x hx => (Table.find?_erase ..).trans (if_neg hx)
        names := fun name _ x hx =>
          List.mem_filter.trans (and_iff_left (decide_eq_true_iff.mpr hx)) }

theorem createWithId_apart (w : World) (id : EntityId) :
    Apart id given w (w.perform (.createWithId id)) := by
  rcases w.createWithId_cases id with ⟨-, e, h⟩ | ⟨hid, h⟩
  · rw [perform, h]
    exact .refl w
  · rw [perform, h]
    exact (Enters.chosen id hid).apart

theorem removeComponent_apart (w : World) (id : EntityId) (component : String) :
    Apart id given w (w.perform (.removeComponent id component)) := by
  rcases w.removeComponent_cases id component with h | h
  · rw [h]
    exact .refl w
  · rw [h]
    exact (w.apart_components (w.components.apart_remove id component)).touch

theorem setField_apart (w : World) (id : EntityId) (component field : String) (v : Value) :
    Apart id given w (w.perform (.setField id component field v)) := by
  apply guarded_relates (R := Apart id given) (.refl w)
  rcases w.components.setField?_cases id component field v with ⟨-, h⟩ | ⟨-, h⟩
  · rw [h]
    exact .refl w
  · rw [h]
    have hwrite := (w.components.apart_ensure id component).trans
      (ComponentStore.apart_write _ id component field (w.components.coerce component field v))
    exact (w.apart_components hwrite).touch

theorem clone_apart (w : World) (source id : EntityId) :
    Apart id given w (w.perform (.clone source (some id))) := by
  rcases w.clone_cases source (some id) with ⟨-, h⟩ | ⟨-, x, -, -, h⟩ | ⟨-, x, v, hv, h⟩
  · rw [perform, h]
    exact .refl w
  · rw [perform, h]
    exact .refl w
  · obtain rfl := hv.eq_target rfl
    rw [perform, h]
    exact hv.enters.apart.trans (v.apart_copied source x)

theorem Request.WritesTo.apart (hr : r.WritesTo id)
    (hgiven : ∀ name, r = .setName id name → given name) (w : World) :
    Apart id given w (w.perform r) := by
  have hguard {f : Except Error World} (h : Apart id given w (w.orKeep f)) :
      Apart id given w (w.orKeep (do w.validate id; f)) :=
    guarded_relates (R := Apart id given) (.refl w) h
  cases r with
  | createWithId x =>
      obtain rfl : x = id := hr
      exact w.createWithId_apart x
  | delete x =>
      obtain rfl : x = id := hr
      exact w.delete_apart x
  | setName x name =>
      obtain rfl : x = id := hr
      exact hguard (w.apart_name x (hgiven name rfl)).touch
  | addComponent x component init =>
      obtain rfl : x = id := hr
      exact hguard (w.apart_components (w.components.apart_insert x component _)).touch
  | removeComponent x component =>
      obtain rfl : x = id := hr
      exact w.removeComponent_apart x component
  | setField x component field v =>
      obtain rfl : x = id := hr
      exact w.setField_apart x component field v
  | setBoundFunction x name f =>
      obtain rfl : x = id := hr
      exact hguard (w.apart_bound x _).touch
  | clone source target =>
      cases target with
      | none => exact hr.elim
      | some x =>
          obtain rfl : x = id := hr
          exact w.clone_apart source x
  | create | mergeField | register | clearEntities | clear => exact hr.elim

theorem after_apart (hrs : ∀ r ∈ rs, r.WritesTo id) (w : World) :
    Apart id (fun name => .setName id name ∈ rs) w (w.after rs) := by
  have hasks : Asks (fun r => r.WritesTo id ∧ r ∈ rs) w (w.after rs) :=
    ⟨rs, fun r hr => ⟨hrs r hr, hr⟩, rfl⟩
  apply hasks.relates .refl fun _ _ _ => .trans
  rintro w r ⟨hr, hmem⟩
  exact hr.apart (fun name heq => heq ▸ hmem) w

theorem Effect.names_ascending (h : Effect w w') (hn : Table.Ascending w.names) :
    Table.Ascending w'.names := by
  cases h with
  | keep | attach | remove | write | bind => exact hn
  | enter h => exact h.names ▸ hn
  | clone h => exact h.names ▸ hn
  | delete => exact List.Pairwise.filter _ hn
  | name id name => exact hn.insert name id
  | clearEntities => exact List.Pairwise.nil

theorem Reachable.names_ascending (hr : Reachable w) : Table.Ascending w.names := by
  induction hr with
  | empty => exact List.Pairwise.nil
  | @request w r _ ih =>
      cases r with
      | mergeField component f =>
          rw [perform, (samePlaces_mergeField component f).names]
          exact ih
      | register => exact ih
      | clear => exact List.Pairwise.nil
      | _ => exact Effect.names_ascending (w.perform_effect trivial) ih

theorem Reachable.entityByName?_eq_some_iff (hr : Reachable w) {name : String} :
    w.entityByName? name = some x ↔ (name, x) ∈ w.names := by
  have hlive (h : (name, x) ∈ w.names) : w.hasEntity x = true :=
    decide_eq_true (hr.sound.names _ h)
  rw [entityByName?, Option.filter_eq_some_iff, hr.names_ascending.find?_eq_some_iff]
  exact ⟨And.left, fun h => ⟨h, hlive h⟩⟩

/-- A write to one entity changes no other, and of its names takes only those that it gives away. -/
theorem Reachable.writes_isolated (hr : Reachable w) (hne : b ≠ a)
    (hrs : ∀ r ∈ rs, r.WritesTo a) : Unchanged b w (w.after rs) ∧
      ∀ name, .setName a name ∉ rs →
        ((w.after rs).entityByName? name = some b ↔ w.entityByName? name = some b) := by
  have hapart := w.after_apart hrs
  refine ⟨hapart.unchanged hne, fun name hname => ?_⟩
  rw [hr.entityByName?_eq_some_iff, (hr.after rs).entityByName?_eq_some_iff]
  exact hapart.names name hname b hne

/-- Whenever a copy is made it is exact: the new entity was not live, it has just the components of
the source with the same records and just the functions in the same order, and no name; all other
entities, the names and the schemas stay. From then on, whatever happened in the meantime, no
sequence of writes to one of the two changes the other, or takes a name from it but to give it
away. It fails just if the source is dead or the target is live, and then nothing changes. -/
theorem clone_exact (hr : Reachable w) (source : EntityId) (target : Option EntityId)
    (hroom : target = none → w.entityIds.length < 2 ^ 64) :
    (∀ id w', w.clone source target = .ok (id, w') →
      (∀ t, target = some t → id = t) ∧ Copies source id w w' ∧
        ∀ a b, (a = source ∧ b = id ∨ a = id ∧ b = source) →
          ∀ before rs, (∀ r ∈ rs, r.WritesTo a) →
            Unchanged b (w'.after before) (w'.after (before ++ rs)) ∧
              ∀ name, .setName a name ∉ rs →
                ((w'.after (before ++ rs)).entityByName? name = some b ↔
                  (w'.after before).entityByName? name = some b)) ∧
      ((∃ e, w.clone source target = .error e) ↔
        w.hasEntity source = false ∨ ∃ t, target = some t ∧ w.hasEntity t = true) ∧
      ((∃ e, w.clone source target = .error e) → w.perform (.clone source target) = w) := by
  refine ⟨?_, ?_, ?_⟩
  · intro id w' h
    obtain ⟨hsource, v, hv, -⟩ := clone_ok h
    have hne : source ≠ id := fun heq => hv.not_live hroom (heq ▸ hsource)
    refine ⟨fun t => hv.eq_target, hr.copies hroom h, ?_⟩
    · intro a b hab before rs hrs
      have hother : b ≠ a := by
        rcases hab with ⟨rfl, rfl⟩ | ⟨rfl, rfl⟩
        · exact hne.symm
        · exact hne
      rw [after_append]
      exact ((hr.cloned h).after before).writes_isolated hother hrs
  · rcases w.clone_cases source target with ⟨hs, h⟩ | ⟨-, t, ht, hlive, h⟩ | ⟨hs, id, v, hv, h⟩
    · exact iff_of_true ⟨_, h⟩ (.inl (decide_eq_false hs))
    · exact iff_of_true ⟨_, h⟩ (.inr ⟨t, ht, decide_eq_true hlive⟩)
    · refine iff_of_false ?_ ?_
      · rintro ⟨e, he⟩
        cases h.symm.trans he
      · rintro (hdead | ⟨t, ht, hlive⟩)
        · exact of_decide_eq_false hdead hs
        · have hfree := hv.not_live fun hnone => nomatch hnone.symm.trans ht
          exact hfree (hv.eq_target ht ▸ of_decide_eq_true hlive)
  · rintro ⟨e, he⟩
    exact perform_of_error (r := .clone source target) (by rw [attempt, he, Except.map])

def vacated : World :=
  endowed.after [.setBoundFunction (.ofNat 0) "greet" ⟨[], none, .literal (.int 1), none⟩,
    .createWithId (.ofNat 5), .addComponent (.ofNat 5) "Curse" [], .delete (.ofNat 5)]

theorem vacated_clone_exact : Reachable vacated ∧
    ∃ w', vacated.clone (.ofNat 0) (some (.ofNat 5)) = .ok (.ofNat 5, w') ∧
      w'.componentsOf (.ofNat 5) = ["Health"] ∧ w'.boundFunctionNames (.ofNat 5) = ["greet"] ∧
      (w'.after [.removeComponent (.ofNat 5) "Health"]).componentsOf (.ofNat 0) = ["Health"] := by
  have hr : Reachable vacated :=
    .after (.request _ (.request _ (.request _ .empty))) _
  obtain ⟨hexact, hfails, -⟩ := clone_exact hr (.ofNat 0) (some (.ofNat 5)) (fun h => nomatch h)
  refine ⟨hr, ?_⟩
  cases h : vacated.clone (.ofNat 0) (some (.ofNat 5)) with
  | error e =>
      rcases hfails.mp ⟨e, h⟩ with hdead | ⟨t, ht, hlive⟩
      · exact absurd hdead (by decide +kernel)
      · obtain rfl := Option.some.inj ht
        exact absurd hlive (by decide +kernel)
  | ok p =>
      obtain ⟨id, w'⟩ := p
      obtain ⟨hid, hcopies, hlater⟩ := hexact id w' h
      obtain rfl := hid _ rfl
      have hcomponents : w'.componentsOf (.ofNat 5) = vacated.componentsOf (.ofNat 0) :=
        congrArg Belongings.components hcopies.belongings
      have hfunctions : w'.functionsOf (.ofNat 5) = vacated.functionsOf (.ofNat 0) :=
        congrArg Belongings.functions hcopies.belongings
      have hsource := congrArg Belongings.components
        (hcopies.others (.ofNat 0) (by decide)).belongings
      have hkept := congrArg Belongings.components
        (hlater (.ofNat 5) (.ofNat 0) (.inr ⟨rfl, rfl⟩) []
          [.removeComponent (.ofNat 5) "Health"] (by simp [Request.WritesTo])).1.belongings
      refine ⟨w', rfl, ?_, ?_, ?_⟩
      · rw [hcomponents]
        decide +kernel
      · rw [boundFunctionNames, hfunctions]
        decide +kernel
      · refine (hkept.trans hsource).trans ?_
        decide +kernel

end World

end RuleSim
