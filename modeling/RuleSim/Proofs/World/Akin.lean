import RuleSim.Proofs.World.Alike
import RuleSim.Proofs.World.Schemas
import RuleSim.Proofs.World.Spared

namespace RuleSim

namespace World

variable {w w' v v' u : World} {ds es : List EntityDecl}

def Spawns (ds : List EntityDecl) (w w' : World) : Prop := ∃ ids, spawnAll ds w = .ok ids w'

theorem spawns_cons {d : EntityDecl} :
    Spawns (d :: ds) w w' ↔ ∃ p, w.withEntity d = .ok p ∧ Spawns ds p.2 w' := by
  unfold Spawns
  rw [spawnAll_cons]
  cases w.withEntity d with
  | error e => simp
  | ok p =>
      dsimp only
      cases hs : spawnAll ds p.2 with
      | error e u => simp [hs]
      | ok ids u => simp [hs]

theorem spawns_append : Spawns (ds ++ es) w u ↔ ∃ v, Spawns ds w v ∧ Spawns es v u := by
  induction ds generalizing w with
  | nil =>
      constructor
      · exact fun h => ⟨w, ⟨[], rfl⟩, h⟩
      · rintro ⟨v, ⟨ids, hv⟩, h⟩
        cases hv
        exact h
  | cons d ds ih =>
      simp only [List.cons_append, spawns_cons, ih]
      constructor
      · rintro ⟨p, hp, v, hv, hu⟩
        exact ⟨v, ⟨p, hp, hv⟩, hu⟩
      · rintro ⟨v, ⟨p, hp, hv⟩, hu⟩
        exact ⟨p, hp, v, hv, hu⟩

namespace Spawns

theorem unique (h : Spawns ds w v) (h' : Spawns ds w v') : v' = v := by
  obtain ⟨ids, h⟩ := h
  obtain ⟨ids', h'⟩ := h'
  cases h.symm.trans h'
  rfl

theorem asks (h : Spawns ds w w') : Asks Request.Plain w w' := by
  obtain ⟨ids, h⟩ := h
  have hasks := w.spawnAll_asks ds
  rwa [final_of_ok h] at hasks

theorem schemas (h : Spawns ds w w') : w'.components.schemas = w.components.schemas :=
  h.asks.keeps.schemas

theorem enter {d : EntityDecl} {p : EntityId × World} (h : w.withEntity d = .ok p) :
    w.entities.enter d = .ok (p.1, p.2.entities) := by
  have hd := w.withEntity_entities d
  rw [h] at hd
  exact hd.symm

theorem live (h : Spawns ds w w') {id : EntityId} (hid : id ∈ w.entities.live) :
    id ∈ w'.entities.live := by
  induction ds generalizing w with
  | nil =>
      obtain ⟨ids, h⟩ := h
      cases h
      exact hid
  | cons d ds ih =>
      obtain ⟨p, hp, h⟩ := spawns_cons.mp h
      exact ih h ((EntityStore.enter_live (enter hp) id).mpr (.inr hid))

/-- An identifier that is asked for is live in the end. -/
theorem chosen (h : Spawns ds w w') {d : EntityDecl} (hd : d ∈ ds) {n : Nat}
    (hn : d.id = some n) : EntityId.ofNat n ∈ w'.entities.live := by
  induction ds generalizing w with
  | nil => cases hd
  | cons e ds ih =>
      obtain ⟨p, hp, hrest⟩ := spawns_cons.mp h
      rcases List.mem_cons.mp hd with rfl | hd
      · refine hrest.live ((EntityStore.enter_live (enter hp) _).mpr (.inl ?_))
        exact (EntityStore.enter_id (enter hp) hn).symm
      · exact ih hrest hd

theorem not_live (h : Spawns ds w w') {d : EntityDecl} (hd : d ∈ ds) {n : Nat}
    (hn : d.id = some n) : EntityId.ofNat n ∉ w.entities.live := by
  intro hlive
  obtain ⟨before, after, rfl⟩ := List.append_of_mem hd
  obtain ⟨e, u, he⟩ := (w.spawnAll_fails_iff _).mpr ⟨before, d, after, n, rfl, hn, .inl hlive⟩
  obtain ⟨ids, h⟩ := h
  cases h.symm.trans he

theorem length_le (h : Spawns ds w w') :
    w'.entities.live.length ≤ w.entities.live.length + ds.length := by
  induction ds generalizing w with
  | nil =>
      obtain ⟨ids, h⟩ := h
      cases h
      exact le_rfl
  | cons d ds ih =>
      obtain ⟨p, hp, h⟩ := spawns_cons.mp h
      obtain ⟨v, henters, hasks⟩ := withEntity_ok hp
      have hlen := henters.length_le
      rw [← furnished_entities hasks] at hlen
      have hrest := ih h
      rw [List.length_cons]
      omega

end Spawns

variable {Q : String → Record → Record → Prop}

/-- The same entities have the same components, functions and names, and their records are related.
New records are, too, so that the relation is kept when declared entities are created. -/
structure Akin (Q : String → Record → Record → Prop) (w v : World) : Prop where
  places : SamePlaces w v
  records : ∀ id component,
    Option.Rel (Q component) (w.component? id component) (v.component? id component)
  fresh : ∀ component init,
    Q component (w.components.newRecord component init) (v.components.newRecord component init)

theorem creating_akin (Q : String → Record → Record → Prop) : Creating (Akin Q) where
  create {w v} h := by
    unfold World.create
    rw [h.places.entities]
    exact ⟨rfl, ⟨rfl, h.places.components, h.places.bound, h.places.names⟩, h.records, h.fresh⟩
  createWithId {w v} h id := by
    unfold World.createWithId
    rw [h.places.entities]
    cases w.entities.insert id with
    | error e => exact .error e
    | ok s =>
        exact .ok ⟨⟨rfl, h.places.components, h.places.bound, h.places.names⟩, h.records, h.fresh⟩
  setName {w v} h id name := by
    refine guarded_match id h.places.entities (.ok ⟨⟨h.places.entities, h.places.components,
      h.places.bound, ?_⟩, h.records, h.fresh⟩)
    exact congrArg (Table.insert · name id) h.places.names
  addComponent {w v} h id component init := by
    refine guarded_match id h.places.entities (.ok ⟨⟨h.places.entities, fun e => ?_,
      h.places.bound, h.places.names⟩, fun e c => ?_, h.fresh⟩)
    · have hcomponents (e : EntityId) :
          v.components.components e = w.components.components e := h.places.components e
      refine (ComponentStore.components_insert ..).trans ?_
      rw [hcomponents, hcomponents]
      exact (ComponentStore.components_insert ..).symm
    · change Option.Rel (Q c) ((w.components.insert id component _).get? e c)
        ((v.components.insert id component _).get? e c)
      rw [ComponentStore.get?_insert, ComponentStore.get?_insert]
      split
      · next hc =>
          obtain ⟨-, rfl⟩ := hc
          exact .some (h.fresh c init)
      · exact h.records e c
  setBoundFunction {w v} h id name f := by
    refine guarded_match id h.places.entities (.ok ⟨⟨h.places.entities, h.places.components,
      ?_, h.places.names⟩, h.records, h.fresh⟩)
    have hfunctions : v.functionsOf id = w.functionsOf id := by
      rw [functionsOf, functionsOf, h.places.bound]
    rw [hfunctions]
    exact congrArg (Table.insert · id _) h.places.bound

/-- Related worlds can do the same creations, and stay related. -/
theorem Akin.spawns (h : Akin Q w v) (hw : Spawns ds w w') :
    ∃ v', Spawns ds v v' ∧ Akin Q w' v' := by
  obtain ⟨ids, hw⟩ := hw
  have hagree := (creating_akin Q).spawnAll ds w v h
  rw [hw] at hagree
  obtain ⟨v', hv, hakin⟩ := hagree.of_ok
  exact ⟨v', ⟨ids, hv⟩, hakin⟩

theorem Akin.spawned (h : Akin Q w v) (hv : Spawns ds v v') :
    ∃ w', Spawns ds w w' ∧ Akin Q w' v' := by
  obtain ⟨ids, hv⟩ := hv
  have hagree := (creating_akin Q).spawnAll ds w v h
  rw [hv] at hagree
  obtain ⟨w', hw, hakin⟩ := hagree.to_ok
  exact ⟨w', ⟨ids, hw⟩, hakin⟩

end World

end RuleSim
