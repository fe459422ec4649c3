import RuleSim.Proofs.World.Recast

namespace RuleSim

def ComponentStore.attachAll (s : ComponentStore) (id : EntityId)
    (inits : List (String × List (String × Value))) : ComponentStore :=
  inits.foldl (fun s p => s.attach id p.1 p.2) s

def EntityDecl.init? (d : EntityDecl) (component : String) : Option (List (String × Value)) :=
  (Table.ofList d.components).find? component

theorem ComponentStore.get?_attachAll (s : ComponentStore) (id : EntityId)
    (inits : List (String × List (String × Value))) (component : String) :
    (s.attachAll id inits).get? id component =
      (((Table.ofList inits).find? component).map (s.newRecord component)).or
        (s.get? id component) := by
  induction inits generalizing s with
  | nil => rfl
  | cons p inits ih =>
      have hrecord : (s.attach id p.1 p.2).newRecord component = s.newRecord component := rfl
      refine (ih (s.attach id p.1 p.2)).trans ?_
      rw [hrecord, attach, get?_insert, Table.find?_ofList_cons, Option.map_or, Option.or_assoc]
      congr 1
      by_cases hc : component = p.1
      · subst hc
        simp
      · simp [hc]

namespace World

variable {w v w' : World} {id : EntityId} {d : EntityDecl} {ds : List EntityDecl}

def Stores (f : World → Except Error World) (g : ComponentStore → ComponentStore) : Prop :=
  ∀ w w', f w = .ok w' → w'.components = g w.components

theorem Stores.bind {f f' : World → Except Error World} {g g' : ComponentStore → ComponentStore}
    (hf : Stores f g) (hf' : Stores f' g') : Stores (fun w => f w >>= f') (g' ∘ g) := by
  intro w w' h
  obtain ⟨v, hw, h⟩ := bind_ok_iff.mp h
  exact (hf' v w' h).trans (congrArg g' (hf w v hw))

theorem foldlM_stores {α : Type} {f : World → α → Except Error World}
    {g : ComponentStore → α → ComponentStore} (hf : ∀ a, Stores (f · a) (g · a)) (as : List α) :
    Stores (as.foldlM f) (as.foldl g) := by
  induction as with
  | nil =>
      intro w w' h
      obtain rfl := Except.ok.inj h
      rfl
  | cons a as ih =>
      intro w w' h
      change (a :: as).foldlM f w = _ at h
      rw [List.foldlM_cons] at h
      exact (hf a).bind ih w w' h

theorem guarded_stores {g : ComponentStore → ComponentStore} {f : World → World}
    (hf : ∀ w, (f w).components = g w.components) :
    Stores (fun w => do w.validate id; return f w) g := by
  intro w w' h
  dsimp only at h
  rw [validate_eq] at h
  split at h
  · exact (Except.ok.inj h) ▸ hf w
  · cases h

theorem furnish_stores (d : EntityDecl) (id : EntityId) :
    Stores (furnish d id) (·.attachAll id d.components) := by
  have hfunctions : Stores (d.boundFunctions.foldlM fun w p => w.setBoundFunction id p.1 p.2)
      (d.boundFunctions.foldl fun s _ => s) :=
    foldlM_stores (fun p => guarded_stores fun _ => rfl) d.boundFunctions
  have hcomponents : Stores (d.components.foldlM fun w p => w.addComponent id p.1 p.2)
      (d.components.foldl fun s p => s.attach id p.1 p.2) :=
    foldlM_stores (fun p => guarded_stores fun _ => rfl) d.components
  have hkeep (s : ComponentStore) : (d.boundFunctions.foldl fun s _ => s) s = s := by
    induction d.boundFunctions with
    | nil => rfl
    | cons p ps ih => exact ih
  intro w w' h
  refine Eq.trans ?_ (hkeep (w.components.attachAll id d.components))
  unfold furnish at h
  cases hd : d.name with
  | none =>
      rw [hd] at h
      exact (hcomponents.bind hfunctions) w w' h
  | some name =>
      rw [hd] at h
      have hname : Stores (·.setName id name) fun s => s := guarded_stores fun _ => rfl
      exact (hname.bind (hcomponents.bind hfunctions)) w w' h

/-- The entity came to life with just the components that are declared for it. -/
structure Furnished (w w' : World) (d : EntityDecl) (id : EntityId) : Prop where
  dead : id ∉ w.entities.live
  live : id ∈ w'.entities.live
  record : ∀ component,
    w'.component? id component = (d.init? component).map (w.components.newRecord component)

theorem withEntity_furnished (hs : Sound w) (hroom : w.entities.live.length < 2 ^ 64)
    (h : w.withEntity d = .ok (id, w')) : Furnished w w' d id := by
  obtain ⟨v, henters, hf⟩ := withEntity_enters h
  have hdead := henters.not_live hroom
  refine ⟨hdead, (EntityStore.enter_live (Spawns.enter h) id).mpr (.inl rfl), fun component => ?_⟩
  have hnone : w.component? id component = none := (hs.blank hdead rfl rfl rfl).record component
  have hv : v.components = w.components := by
    cases henters with
    | fresh | chosen => rfl
  rw [World.component?, furnish_stores d id v w' hf, hv, ComponentStore.get?_attachAll]
  exact (congrArg _ hnone).trans Option.or_none

/-- The declared entities came to life in order, under different identifiers, under that for which
they ask if they ask for one, and each is furnished. -/
structure Populated (w w' : World) (ds : List EntityDecl) (ids : List EntityId) : Prop where
  furnished : List.Forall₂ (fun d id => Furnished w w' d id ∧ ∀ n ∈ d.id, id = .ofNat n) ds ids
  distinct : ids.Nodup
  live : ∀ id, id ∈ w'.entities.live ↔ id ∈ ids ∨ id ∈ w.entities.live

theorem Populated.exists_id {ids : List EntityId} (h : Populated w w' ds ids) (hd : d ∈ ds) :
    ∃ id ∈ ids, Furnished w w' d id := by
  obtain ⟨i, rfl⟩ := List.get_of_mem hd
  have hi : i.1 < ids.length := i.2.trans_eq h.furnished.length_eq
  exact ⟨ids.get ⟨i, hi⟩, List.get_mem .., (h.furnished.get i.2 hi).1⟩

theorem Populated.exists_decl {ids : List EntityId} (h : Populated w w' ds ids) (hid : id ∈ ids) :
    ∃ d ∈ ds, Furnished w w' d id := by
  obtain ⟨i, rfl⟩ := List.get_of_mem hid
  have hi : i.1 < ds.length := i.2.trans_eq h.furnished.length_eq.symm
  exact ⟨ds.get ⟨i, hi⟩, List.get_mem .., (h.furnished.get hi i.2).1⟩

theorem spawnAll_populated {ids : List EntityId} (h : spawnAll ds w = .ok ids w') (hs : Sound w)
    (hroom : w.entities.live.length + ds.length ≤ 2 ^ 64) : Populated w w' ds ids := by
  induction ds generalizing w ids with
  | nil =>
      cases h
      exact ⟨.nil, .nil, fun id => by simp⟩
  | cons d ds ih =>
      obtain ⟨x, rest, u, rfl, hd, hspawn⟩ := spawnAll_cons_inv h
      rw [List.length_cons] at hroom
      have hx := withEntity_furnished hs (by omega) hd
      have hlive (id : EntityId) := EntityStore.enter_live (Spawns.enter hd) id
      have hkeeps : w.Keeps u := (withEntity_asks hd).keeps
      have hlen : u.entities.live.length + ds.length ≤ 2 ^ 64 := by
        obtain ⟨v, henters, hasks⟩ := withEntity_ok hd
        have hlen := henters.length_le
        rw [← furnished_entities hasks] at hlen
        omega
      have hfirst : Furnished w w' d x := by
        have hspared := spawnAll_spares hspawn hlen hx.live
        exact ⟨hx.dead, hspared.live hx.live, fun c => (hspared.record c).trans (hx.record c)⟩
      have hlater {e : EntityDecl} {id : EntityId} (he : Furnished u w' e id) :
          Furnished w w' e id := by
        refine ⟨fun hid => he.dead ((hlive id).mpr (.inr hid)), he.live, fun c => ?_⟩
        rw [he.record, funext (newRecord_congr hkeeps.schemas c)]
      have hrest := ih hspawn (hkeeps.sound hs) hlen
      refine ⟨.cons ⟨hfirst, fun n hn => EntityStore.enter_id (Spawns.enter hd) hn⟩ ?_, ?_, ?_⟩
      · exact hrest.furnished.imp fun e id he => ⟨hlater he.1, he.2⟩
      · refine List.nodup_cons.mpr ⟨fun hmem => ?_, hrest.distinct⟩
        obtain ⟨e, -, he⟩ := hrest.exists_decl hmem
        exact he.dead hx.live
      · intro id
        rw [hrest.live, hlive, List.mem_cons, or_left_comm, or_assoc]

/-- The declared entities are just those that come to life, and each is furnished. -/
theorem Spawns.furnished (h : Spawns ds w w') (hs : Sound w)
    (hroom : w.entities.live.length + ds.length ≤ 2 ^ 64) :
    (∀ d ∈ ds, ∃ id, Furnished w w' d id) ∧
      ∀ id, id ∉ w.entities.live → id ∈ w'.entities.live → ∃ d ∈ ds, Furnished w w' d id := by
  obtain ⟨ids, h⟩ := h
  have hall := spawnAll_populated h hs hroom
  constructor
  · intro d hd
    obtain ⟨id, -, hid⟩ := hall.exists_id hd
    exact ⟨id, hid⟩
  · intro id hdead hlive
    exact hall.exists_decl (((hall.live id).mp hlive).resolve_right hdead)

end World

end RuleSim
