import RuleSim.Proofs.World.Requests

namespace RuleSim

theorem OrderedSet.length_insert_le {α : Type} [DecidableEq α] [LT α] [DecidableLT α]
    (s : OrderedSet α) (a : α) : (s.insert a).length ≤ s.length + 1 := by
  induction s with
  | nil => exact le_rfl
  | cons b s ih =>
      rw [insert]
      split
      · exact Nat.le_succ _
      · split
        · exact le_rfl
        · exact Nat.succ_le_succ ih

theorem OrderedSet.length_le_insert {α : Type} [DecidableEq α] [LT α] [DecidableLT α]
    (s : OrderedSet α) (a : α) : s.length ≤ (s.insert a).length := by
  induction s with
  | nil => exact Nat.zero_le _
  | cons b s ih =>
      rw [insert]
      split
      · exact le_rfl
      · split
        · exact Nat.le_succ _
        · exact Nat.succ_le_succ ih

namespace World

variable {w v w' w'' : World} {id x : EntityId} {d : EntityDecl} {ds : List EntityDecl}

/-- What a request does to the world it does if it is not refused. -/
theorem guarded_relates {R : World → World → Prop} (hrefl : R w w) {f : Except Error World}
    (h : R w (w.orKeep f)) : R w (w.orKeep (do w.validate x; f)) := by
  rw [validate_eq]
  split
  · exact h
  · exact hrefl

structure Spared (id : EntityId) (w w' : World) : Prop where
  live : id ∈ w.entities.live → id ∈ w'.entities.live
  record : ∀ component, w'.components.get? id component = w.components.get? id component
  components : w'.componentsOf id = w.componentsOf id
  functions : w'.functionsOf id = w.functionsOf id

theorem Spared.refl (id : EntityId) (w : World) : Spared id w w := ⟨fun h => h, fun _ => rfl, rfl, rfl⟩

theorem Spared.trans (h : Spared id w w') (h' : Spared id w' w'') : Spared id w w'' :=
  ⟨fun hl => h'.live (h.live hl), fun c => (h'.record c).trans (h.record c),
    h'.components.trans h.components, h'.functions.trans h.functions⟩

theorem Enters.spares (h : Enters w x v) (id : EntityId) : Spared id w v := by
  have hlive := h.live id
  cases h with
  | fresh | chosen => exact ⟨fun hid => hlive.mpr (.inr hid), fun _ => rfl, rfl, rfl⟩

theorem Enters.length_le (h : Enters w x v) :
    v.entities.live.length ≤ w.entities.live.length + 1 := by
  cases h with
  | fresh | chosen => exact OrderedSet.length_insert_le ..

theorem Enters.not_live (h : Enters w x v) (hroom : w.entities.live.length < 2 ^ 64) :
    x ∉ w.entities.live := by
  cases h with
  | fresh => exact EntityStore.spawn_fresh hroom
  | chosen id hfree => exact hfree

namespace Request.Furnishes

variable {r : Request} (h : r.Furnishes d x)
include h

theorem entities (w : World) : (w.perform r).entities = w.entities := by
  cases h with
  | name | component | function =>
      exact guarded_relates (R := fun w w' => w'.entities = w.entities) rfl rfl

theorem spares (hne : id ≠ x) (w : World) : Spared id w (w.perform r) := by
  cases h with
  | name => exact guarded_relates (R := Spared id) (.refl id w) ⟨fun h => h, fun _ => rfl, rfl, rfl⟩
  | component c init =>
      apply guarded_relates (R := Spared id) (.refl id w)
      refine ⟨fun h => h, fun component => ?_, ?_, rfl⟩
      · exact (ComponentStore.get?_insert ..).trans (if_neg fun h => hne h.1)
      · exact (ComponentStore.components_insert ..).trans (if_neg hne)
  | function name f =>
      apply guarded_relates (R := Spared id) (.refl id w)
      refine ⟨fun h => h, fun _ => rfl, rfl, ?_⟩
      exact congrArg (Option.getD · []) ((Table.find?_insert ..).trans (if_neg hne))

theorem names {name : String} (hname : d.name ≠ some name) (w : World) :
    (w.perform r).names.find? name = w.names.find? name := by
  cases h with
  | @name other hother =>
      apply guarded_relates (R := fun w w' => w'.names.find? name = w.names.find? name) rfl
      have hne : name ≠ other := fun heq => hname (heq ▸ hother)
      exact (Table.find?_insert ..).trans (if_neg hne)
  | component | function =>
      exact guarded_relates (R := fun w w' => w'.names.find? name = w.names.find? name) rfl rfl

end Request.Furnishes

theorem furnished_entities (h : Asks (Request.Furnishes d x) w w') : w'.entities = w.entities :=
  h.relates (R := fun w w' => w'.entities = w.entities) (fun _ => rfl)
    (fun _ _ _ h h' => h'.trans h) fun w _ hr => hr.entities w

theorem furnished_spares (h : Asks (Request.Furnishes d x) w w') (hne : id ≠ x) :
    Spared id w w' :=
  h.relates (.refl id) (fun _ _ _ => Spared.trans) fun w _ hr => hr.spares hne w

theorem furnished_names (h : Asks (Request.Furnishes d x) w w') {name : String}
    (hname : d.name ≠ some name) : w'.names.find? name = w.names.find? name :=
  h.relates (R := fun w w' => w'.names.find? name = w.names.find? name) (fun _ => rfl)
    (fun _ _ _ h h' => h'.trans h) fun w _ hr => hr.names hname w

theorem spawnAll_cons_ok {ids : List EntityId} (h : spawnAll (d :: ds) w = .ok ids w'') :
    ∃ id rest v w', Enters w id v ∧ Asks (Request.Furnishes d id) v w' ∧
      spawnAll ds w' = .ok rest w'' := by
  obtain ⟨id, rest, w', -, hd, hs⟩ := spawnAll_cons_inv h
  obtain ⟨v, henters, hasks⟩ := withEntity_ok hd
  exact ⟨id, rest, v, w', henters, hasks, hs⟩

theorem spawnAll_spares {ids : List EntityId} (h : spawnAll ds w = .ok ids w')
    (hroom : w.entities.live.length + ds.length ≤ 2 ^ 64) (hid : id ∈ w.entities.live) :
    Spared id w w' := by
  induction ds generalizing w ids with
  | nil =>
      cases h
      exact .refl id _
  | cons d ds ih =>
      obtain ⟨x, rest, v, u, henters, hasks, hs⟩ := spawnAll_cons_ok h
      rw [List.length_cons] at hroom
      have hne : id ≠ x := fun heq => henters.not_live (by omega) (heq ▸ hid)
      have hspared := (henters.spares id).trans (furnished_spares hasks hne)
      have hlen := henters.length_le
      rw [← furnished_entities hasks] at hlen
      exact hspared.trans (ih hs (by omega) (hspared.live hid))

theorem spawnAll_names {ids : List EntityId} (h : spawnAll ds w = .ok ids w') {name : String}
    (hname : ∀ d ∈ ds, d.name ≠ some name) : w'.names.find? name = w.names.find? name := by
  induction ds generalizing w ids with
  | nil =>
      cases h
      rfl
  | cons d ds ih =>
      obtain ⟨x, rest, v, u, henters, hasks, hs⟩ := spawnAll_cons_ok h
      rw [List.forall_mem_cons] at hname
      rw [ih hs hname.2, furnished_names hasks hname.1]
      cases henters with
      | fresh | chosen => rfl

end World

end RuleSim
