import RuleSim.Proofs.World.Ordered
import RuleSim.Proofs.World.Requests

namespace RuleSim

namespace ComponentStore

variable {s : ComponentStore}

theorem Ordered.keys (h : s.Ordered) (component : String) :
    OrderedSet.Ascending (Table.keys (s.instances component)) :=
  List.pairwise_map.mpr (h.instances component)

theorem mem_keys_instances {entity : EntityId} {component : String} :
    entity ∈ Table.keys (s.instances component) ↔ s.has entity component = true :=
  Table.mem_keys_iff

theorem Ordered.withAll (h : s.Ordered) (components : List String) :
    OrderedSet.Ascending (s.withAll components) := by
  unfold ComponentStore.withAll
  cases components with
  | nil => exact List.Pairwise.nil
  | cons c cs =>
      have hperm := smallestFirst_perm (s.instances c) (cs.map s.instances)
      have hmem : (smallestFirst (s.instances c) (cs.map s.instances)).1 ∈
          (c :: cs).map s.instances := hperm.subset List.mem_cons_self
      obtain ⟨d, -, hd⟩ := List.mem_map.mp hmem
      apply List.Pairwise.filter
      rw [← hd]
      exact h.keys d

end ComponentStore

namespace World

variable {w : World} {id : EntityId} {component : String}

theorem Sound.hasComponent_iff_has (hs : Sound w) :
    w.hasComponent id component = true ↔ w.components.has id component = true :=
  hasComponent_iff.trans (and_iff_right_of_imp (hs.records id component))

theorem Sound.hasComponent_iff_component? (hs : Sound w) :
    w.hasComponent id component = true ↔ (w.component? id component).isSome = true :=
  hs.hasComponent_iff_has

theorem Sound.hasComponent_iff_mem (hs : Sound w) :
    w.hasComponent id component = true ↔ component ∈ w.componentsOf id :=
  hs.hasComponent_iff_has.trans (hs.indexed id component).symm

theorem Sound.mem_query (hs : Sound w) (components : List String) :
    id ∈ w.query components ↔
      w.hasEntity id = true ∧ ∀ c ∈ components, w.hasComponent id c = true := by
  rw [hasEntity_iff]
  cases components with
  | nil => exact (and_iff_left fun c hc => absurd hc List.not_mem_nil).symm
  | cons c cs =>
      rw [query, if_neg (by simp), ComponentStore.mem_withAll]
      simp only [hs.hasComponent_iff_has]
      constructor
      · rintro ⟨-, h⟩
        exact ⟨hs.records id c (h c List.mem_cons_self), h⟩
      · rintro ⟨-, h⟩
        exact ⟨List.cons_ne_nil c cs, h⟩

theorem Ordered.query (h : Ordered w) (components : List String) :
    OrderedSet.Ascending (w.query components) := by
  unfold World.query
  split
  · exact h.live
  · exact h.components.withAll components

/-- A query gives just the live entities that have every listed component, each once and in
ascending order; all readers agree on which components those are. In which order and how often the
components are listed makes no difference, nor does it whose table is walked. -/
theorem query_eq_filter (hr : Reachable w) (components : List String) :
    w.query components = w.entityIds.filter (fun id => components.all (w.hasComponent id ·)) ∧
      OrderedSet.Ascending (w.query components) ∧ (w.query components).Nodup ∧
      (∀ id, id ∈ w.query components ↔ w.hasEntity id = true ∧ ∀ c ∈ components,
        w.hasComponent id c = true ∧ (w.component? id c).isSome = true ∧ c ∈ w.componentsOf id) ∧
      (∀ id c, (w.hasComponent id c = true ↔ (w.component? id c).isSome = true) ∧
        (w.hasComponent id c = true ↔ c ∈ w.componentsOf id)) ∧
      (∀ others, (∀ c, c ∈ others ↔ c ∈ components) → w.query others = w.query components) ∧
      ∀ c ∈ components, w.query components =
        (Table.keys (w.components.instances c)).filter fun id =>
          components.all (w.components.has id ·) := by
  have hs := hr.sound
  have hascending := hr.ordered.query components
  refine ⟨?_, hascending, List.Pairwise.nodup hascending, ?_, ?_, ?_, ?_⟩
  · apply hascending.ext (List.Pairwise.filter _ hr.ordered.live)
    intro id
    rw [hs.mem_query, List.mem_filter, List.all_eq_true]
    exact and_congr_left' hasEntity_iff
  · intro id
    rw [hs.mem_query]
    refine and_congr_right' (forall₂_congr fun c _ => ?_)
    rw [← hs.hasComponent_iff_component?, ← hs.hasComponent_iff_mem, and_self, and_self]
  · intro id c
    exact ⟨hs.hasComponent_iff_component?, hs.hasComponent_iff_mem⟩
  · intro others hothers
    apply (hr.ordered.query others).ext hascending
    intro id
    simp only [hs.mem_query, hothers]
  · intro c hc
    apply hascending.ext (List.Pairwise.filter _ (hr.ordered.components.keys c))
    intro id
    rw [hs.mem_query, List.mem_filter, List.all_eq_true, ComponentStore.mem_keys_instances]
    simp only [← hs.hasComponent_iff_has]
    constructor
    · rintro ⟨-, h⟩
      exact ⟨h c hc, h⟩
    · rintro ⟨hid, h⟩
      exact ⟨hasEntity_iff.mpr (hasComponent_iff.mp hid).1, h⟩

def depleted : World :=
  endowed.after [.create, .create, .addComponent (.ofNat 2) "Health" [],
    .addComponent (.ofNat 2) "Shield" [], .addComponent (.ofNat 1) "Shield" [],
    .addComponent (.ofNat 1) "Poison" [], .removeComponent (.ofNat 1) "Poison"]

theorem depleted_query : Reachable depleted ∧
    depleted.query ["Shield", "Health", "Shield"] = [.ofNat 2] ∧
      depleted.query ["Health", "Shield"] = [.ofNat 2] ∧ depleted.query ["Poison"] = [] ∧
      depleted.query ["Ghost", "Health"] = [] := by
  have hr : Reachable depleted := .after (.request _ (.request _ (.request _ .empty))) _
  obtain ⟨htwice, -, -, -, -, horder, -⟩ := query_eq_filter hr ["Shield", "Health", "Shield"]
  have hfound : depleted.query ["Shield", "Health", "Shield"] = [.ofNat 2] := by
    rw [htwice]
    decide +kernel
  refine ⟨hr, hfound, (horder ["Health", "Shield"] ?_).trans hfound, ?_, ?_⟩
  · intro c
    simp only [List.mem_cons]
    tauto
  · rw [(query_eq_filter hr ["Poison"]).1]
    decide +kernel
  · rw [(query_eq_filter hr ["Ghost", "Health"]).1]
    decide +kernel

end World

end RuleSim
