import RuleSim.Proofs.World.Akin
import RuleSim.Proofs.World.Ordered

namespace RuleSim

namespace World

variable {w w' w'' v v' v'' : World}

theorem initially_congr (h : w'.components.schemas = w.components.schemas) (component field : String)
    (x : Option Value) :
    w'.components.initially component field x = w.components.initially component field x := by
  unfold ComponentStore.initially ComponentStore.coerce ComponentStore.schema?
  rw [h]

theorem newRecord_congr (h : w'.components.schemas = w.components.schemas) (component : String)
    (init : List (String × Value)) :
    w'.components.newRecord component init = w.components.newRecord component init := by
  unfold ComponentStore.newRecord ComponentStore.schema?
  rw [h]

theorem fieldSchema?_congr (h : w'.components.schemas = w.components.schemas) :
    w'.fieldSchema? = w.fieldSchema? := by
  unfold fieldSchema? schema? ComponentStore.schema?
  rw [h]

theorem field?_eq (w : World) (id : EntityId) (component field : String) :
    w.field? id component field = (w.component? id component).bind (Table.find? · field) := rfl

def AgreeLoose (w : World) (component : String) (r q : Record) : Prop :=
  ∀ field, w.fieldSchema? component field = none → Table.find? q field = Table.find? r field

/-- What a record would hold under the schemas of the second world: a field that had a schema in the
first one stays, and any other is taken for an initial value. -/
def Recast (w w' : World) (component : String) (r q : Record) : Prop :=
  ∀ field, Table.find? q field = if w.fieldSchema? component field = none then
    w'.components.initially component field (Table.find? r field) else Table.find? r field

def Kept (w w' : World) (component : String) (r q : Record) : Prop :=
  ∀ field, w.fieldSchema? component field ≠ none ∨ w'.fieldSchema? component field = none →
    Table.find? q field = Table.find? r field

def Equal (_ : String) (r q : Record) : Prop := ∀ field, Table.find? q field = Table.find? r field

def SameFields (w v : World) : Prop :=
  ∀ id component field, v.field? id component field = w.field? id component field

/-- The second world has further schemas. A field that had no schema holds there what it would hold
if its value had been the initial one. -/
def InLine (w w' : World) : Prop :=
  ∀ id component field, w.components.has id component = true →
    w.fieldSchema? component field = none → w'.field? id component field =
      w'.components.initially component field (w.field? id component field)

/-- The second world has the schemas of the first and further ones. Its records are those of the
first, but for fields that get a schema. -/
structure Grows (w w' : World) : Prop where
  places : SamePlaces w w'
  loose : ∀ component field, w'.fieldSchema? component field = none →
    w.fieldSchema? component field = none
  initially : ∀ component field x, w.fieldSchema? component field ≠ none →
    w'.components.initially component field x = w.components.initially component field x
  records : ∀ id component,
    Option.Rel (Kept w w' component) (w.component? id component) (w'.component? id component)

theorem SamePlaces.symm (h : SamePlaces w v) : SamePlaces v w :=
  ⟨h.entities.symm, fun id => (h.components id).symm, h.bound.symm, h.names.symm⟩

/-- A new record under later schemas is the earlier new record recast. -/
theorem Grows.recast (h : Grows w w') (component : String) (init : List (String × Value)) :
    Recast w w' component (w.components.newRecord component init)
      (w'.components.newRecord component init) := by
  intro field
  rw [ComponentStore.find?_newRecord, ComponentStore.find?_newRecord]
  split
  · next hloose => rw [w.components.initially_of_none component hloose]
  · next hschema => exact h.initially component field _ hschema

theorem Bare.akin {Q : String → Record → Record → Prop} (hw : Bare w) (hv : Bare v)
    (h : ∀ component init, Q component (w.components.newRecord component init)
      (v.components.newRecord component init)) : Akin Q w v where
  places := ⟨hv.entities.trans hw.entities.symm,
    fun id => (hv.components id).trans (hw.components id).symm, hv.bound.trans hw.bound.symm,
    hv.names.trans hw.names.symm⟩
  records id component := by
    unfold component? ComponentStore.get?
    rw [hw.instances, hv.instances]
    exact .none
  fresh := h

/-- Worlds without entities give rise to records that are recast. -/
theorem Grows.akin {u u' : World} (h : Grows w w') (hu : Bare u) (hu' : Bare u')
    (hs : u.components.schemas = w.components.schemas)
    (hs' : u'.components.schemas = w'.components.schemas) : Akin (Recast w w') u u' := by
  refine hu.akin hu' fun component init => ?_
  rw [newRecord_congr hs, newRecord_congr hs']
  exact h.recast component init

theorem equal_recast_iff {component : String} {r r' q q' : Record} (hkept : Kept w w' component r r')
    (hagree : AgreeLoose w component r q) (hcast : Recast w w' component q q') :
    Equal component r' q' ↔ Equal component r q ∧ ∀ field, w.fieldSchema? component field = none →
      Table.find? r' field = w'.components.initially component field (Table.find? r field) := by
  constructor
  · intro h
    refine ⟨fun field => ?_, fun field hloose => ?_⟩
    · by_cases hloose : w.fieldSchema? component field = none
      · exact hagree field hloose
      · rw [← hkept field (.inl hloose), ← h field, hcast field, if_neg hloose]
    · rw [← h field, hcast field, if_pos hloose, hagree field hloose]
  · rintro ⟨h, hline⟩ field
    rw [hcast field, h field]
    split
    · next hloose => rw [hline field hloose]
    · next hschema => rw [hkept field (.inl hschema)]

section Growth

variable (hg : Grows w w') (ha : Akin (AgreeLoose w) w v) (hc : Akin (Recast w w') v v')
include hg ha hc

theorem Grows.records_cases (id : EntityId) (component : String) :
    (w.component? id component = none ∧ w'.component? id component = none ∧
        v.component? id component = none ∧ v'.component? id component = none) ∨
      ∃ r r' q q', w.component? id component = some r ∧ w'.component? id component = some r' ∧
        v.component? id component = some q ∧ v'.component? id component = some q' ∧
        Kept w w' component r r' ∧ AgreeLoose w component r q ∧ Recast w w' component q q' := by
  have hgrown := hg.records id component
  have hagree := ha.records id component
  have hcast := hc.records id component
  generalize w.component? id component = x, w'.component? id component = x',
    v.component? id component = y, v'.component? id component = y' at hgrown hagree hcast
  cases hgrown with
  | none =>
      cases hagree
      cases hcast
      exact .inl ⟨rfl, rfl, rfl, rfl⟩
  | some hgrown =>
      cases hagree with
      | some hagree =>
      cases hcast with
      | some hcast => exact .inr ⟨_, _, _, _, rfl, rfl, rfl, rfl, hgrown, hagree, hcast⟩

/-- Records that agree in fields without a schema still do so after some of them got one. -/
theorem Grows.agreeLoose (hs : v'.components.schemas = w'.components.schemas) :
    Akin (AgreeLoose w') w' v' where
  places := (hg.places.symm.trans ha.places).trans hc.places
  records id component := by
    rcases hg.records_cases ha hc id component with
      ⟨-, hw', -, hv'⟩ | ⟨r, r', q, q', -, hw', -, hv', hkept, hagree, hcast⟩
    · rw [hw', hv']
      exact .none
    · rw [hw', hv']
      refine .some fun field hloose => ?_
      have hbefore := hg.loose component field hloose
      rw [hcast field, if_pos hbefore, hkept field (.inr hloose), hagree field hbefore]
      exact w'.components.initially_of_none component hloose _
  fresh component init field _ := by rw [newRecord_congr hs]

/-- The recast records hold what the records of the grown world hold just if both held the same
before and the records of the grown world were brought in line. -/
theorem Grows.sameFields_iff : SameFields w' v' ↔ SameFields w v ∧ InLine w w' := by
  have hrecords (id : EntityId) (component : String) :
      (∀ field, v'.field? id component field = w'.field? id component field) ↔
        (∀ field, v.field? id component field = w.field? id component field) ∧
          (w.components.has id component = true → ∀ field,
            w.fieldSchema? component field = none → w'.field? id component field =
              w'.components.initially component field (w.field? id component field)) := by
    have hhas : w.components.has id component = (w.component? id component).isSome := rfl
    simp only [field?_eq, hhas]
    rcases hg.records_cases ha hc id component with
      ⟨hw, hw', hv, hv'⟩ | ⟨r, r', q, q', hw, hw', hv, hv', hkept, hagree, hcast⟩
    · rw [hw, hw', hv, hv']
      simp
    · rw [hw, hw', hv, hv']
      simp only [Option.bind_some, Option.isSome_some, forall_const]
      exact equal_recast_iff hkept hagree hcast
  constructor
  · intro h
    refine ⟨fun id component => ((hrecords id component).mp (h id component)).1, ?_⟩
    exact fun id component field hhas =>
      ((hrecords id component).mp (h id component)).2 hhas field
  · rintro ⟨h, hline⟩ id component
    exact (hrecords id component).mpr
      ⟨h id component, fun hhas field => hline id component field hhas⟩

end Growth

theorem Akin.sameFields (h : Akin Equal w v) : SameFields w v := by
  intro id component field
  have hrecord := h.records id component
  rw [field?_eq, field?_eq]
  generalize w.component? id component = x, v.component? id component = y at hrecord ⊢
  cases hrecord with
  | none => rfl
  | some hrecord => exact hrecord field

theorem Akin.equal {Q : String → Record → Record → Prop} (ha : Akin Q w v)
    (hs : v.components.schemas = w.components.schemas) (h : SameFields w v) : Akin Equal w v where
  places := ha.places
  records id component := by
    have hrecord := ha.records id component
    have hfields := h id component
    simp only [field?_eq] at hfields
    generalize w.component? id component = x, v.component? id component = y
      at hrecord hfields ⊢
    cases hrecord with
    | none => exact .none
    | some => exact .some hfields
  fresh component init field := by rw [newRecord_congr hs]

section Creation

variable {ds : List EntityDecl} (hroom : w.entities.live.length + ds.length ≤ 2 ^ 64)
include hroom

theorem Spawns.field? (h : Spawns ds w w') {id : EntityId} (hid : id ∈ w.entities.live)
    (component field : String) : w'.field? id component field = w.field? id component field := by
  obtain ⟨ids, h⟩ := h
  exact congrArg (Option.bind · (Table.find? · field))
    ((spawnAll_spares h hroom hid).record component)

/-- Whether records were brought in line does not depend on entities that are created later. -/
theorem inLine_spawns_iff (hg : Grows v w) (hs : Sound v) (h : Spawns ds w w') :
    InLine v w' ↔ InLine v w := by
  unfold InLine
  refine forall_congr' fun id => forall_congr' fun component => forall_congr' fun field =>
    imp_congr_right fun hhas => ?_
  have hid : id ∈ w.entities.live := hg.places.entities ▸ hs.records id component hhas
  rw [h.field? hroom hid, initially_congr h.schemas]

/-- Two worlds hold the same after the same entities were created in both just if they did so
before. -/
theorem sameFields_spawns_iff {Q : String → Record → Record → Prop} (hs : Sound w) (hs' : Sound v)
    (ha : Akin Q w v) (hschemas : v.components.schemas = w.components.schemas)
    (hw : Spawns ds w w') (hv : Spawns ds v v') : SameFields w' v' ↔ SameFields w v := by
  constructor
  · intro h id component field
    by_cases hid : id ∈ w.entities.live
    · have hroom' : v.entities.live.length + ds.length ≤ 2 ^ 64 := ha.places.entities ▸ hroom
      have hid' : id ∈ v.entities.live := ha.places.entities ▸ hid
      rw [← hv.field? hroom' hid', h, hw.field? hroom hid]
    · have hid' : id ∉ v.entities.live := ha.places.entities ▸ hid
      rw [(hs.blank hid rfl rfl rfl).field, (hs'.blank hid' rfl rfl rfl).field]
  · intro h
    obtain ⟨u, hu, hequal⟩ := (ha.equal hschemas h).spawns hw
    obtain rfl := hv.unique hu
    exact hequal.sameFields

end Creation

/-- What is created anew under the later schemas, with further entities, holds what is there just if
this was so before and the records were brought in line. -/
theorem Grows.sameFields_spawns_iff {ds : List EntityDecl} (hg : Grows w w')
    (ha : Akin (AgreeLoose w) w v) (hc : Akin (Recast w w') v v')
    (hschemas : v'.components.schemas = w'.components.schemas) (hs : Sound w) (hs' : Sound w')
    (hsv : Sound v') (hroom : w'.entities.live.length + ds.length ≤ 2 ^ 64)
    (hw : Spawns ds w' w'') (hv : Spawns ds v' v'') :
    SameFields w'' v'' ↔ SameFields w v ∧ InLine w w'' := by
  have hagree := hg.agreeLoose ha hc hschemas
  rw [World.sameFields_spawns_iff hroom hs' hsv hagree hschemas hw hv, hg.sameFields_iff ha hc,
    inLine_spawns_iff hroom hg hs hw]

/-- Worlds with the same places are told apart by what their fields hold. -/
theorem alike_iff_sameFields {Q : String → Record → Record → Prop} (ha : Akin Q w v)
    (hs : v.components.schemas = w.components.schemas) (ho : Ordered w) (ho' : Ordered v) :
    (∃ k, Alike k w v) ↔ SameFields w v := by
  constructor
  · rintro ⟨k, h⟩ id component field
    exact h.field? id component field
  · intro h
    refine ⟨v.revision - w.revision, ha.places.entities, ⟨hs, fun component => ?_,
      ha.places.components⟩, ha.places.bound, ha.places.names, ?_⟩
    · refine (ho'.components.instances component).ext (ho.components.instances component)
        fun id => ?_
      have hrecord := (ha.equal hs h).records id component
      have hr := ho.components.records id component
      have hq := ho'.components.records id component
      change v.component? id component = w.component? id component
      change ∀ r, w.component? id component = some r → _ at hr
      change ∀ q, v.component? id component = some q → _ at hq
      generalize w.component? id component = x, v.component? id component = y
        at hrecord hr hq ⊢
      cases hrecord with
      | none => rfl
      | @some r q hfields => rw [(hq q rfl).ext (hr r rfl) hfields]
    · rw [UInt64.add_comm, UInt64.sub_add_cancel]

end World

end RuleSim
