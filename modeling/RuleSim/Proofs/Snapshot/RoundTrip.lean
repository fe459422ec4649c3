import RuleSim.Proofs.Document.Return
import RuleSim.Proofs.Simulation.Reachable
import RuleSim.Proofs.Value.Parts
import RuleSim.Proofs.World.Ordered
import RuleSim.Snapshot.Reading
import RuleSim.Snapshot.Writing

namespace RuleSim

namespace Pack

theorem values?_ofJson {items : List Json}
    (h : ∀ j ∈ items, (ofJson j).value? = some (Value.ofJson j.sorted)) :
    values? (items.map ofJson) = some (items.map fun j => Value.ofJson j.sorted) := by
  induction items with
  | nil => rfl
  | cons j js ih =>
      rw [List.forall_mem_cons] at h
      rw [List.map_cons, values?, h.1, ih h.2]
      rfl

theorem fields?_ofJson {es : List (String × Json)}
    (h : ∀ p ∈ es, (ofJson p.2).value? = some (Value.ofJson p.2.sorted)) :
    fields? (es.map fun p => (str p.1, ofJson p.2)) =
      some (es.map fun p => (p.1, Value.ofJson p.2.sorted)) := by
  induction es with
  | nil => rfl
  | cons p es ih =>
      rw [List.forall_mem_cons] at h
      rw [List.map_cons, fields?, h.1, ih h.2]
      rfl

/-- A tree is read as the value that it says when its objects are in order. -/
theorem value?_ofJson (j : Json) : (ofJson j).value? = some (Value.ofJson j.sorted) := by
  induction j using Json.tree_induction with
  | null | bool | float | str => rfl
  | int n =>
      rw [ofJson]
      split_ifs with h
      · rw [value?, Int.toNat_of_nonneg h]
        rfl
      · rfl
  | arr items ih =>
      rw [ofJson, ofJsonItems_eq, value?, values?_ofJson ih, Json.sorted_arr, Value.ofJson,
        Value.ofJsonItems_eq, List.map_map]
      rfl
  | obj es ih =>
      have hsorted : Table.ofList (es.map fun p => (p.1, Value.ofJson p.2.sorted)) =
          (Table.ofList (es.map fun p => (p.1, p.2.sorted))).map
            fun p => (p.1, Value.ofJson p.2) := by
        rw [← Table.ofList_map, List.map_map]
        rfl
      rw [ofJson, ofJsonEntries_eq, value?, fields?_ofJson ih, Json.sorted_obj, Value.ofJson,
        Value.ofJsonEntries_eq, ← hsorted]
      rfl

theorem mapM_of_some {α β : Type} {f : α → Option β} {g : α → β} {as : List α}
    (h : ∀ a ∈ as, f a = some (g a)) : as.mapM f = some (as.map g) := by
  induction as with
  | nil => rfl
  | cons a as ih =>
      rw [List.forall_mem_cons] at h
      rw [List.mapM_cons, h.1, ih h.2]
      rfl

theorem knownParts?_of_nodup {names : List String} {parts : List (String × Pack)}
    (hnames : ∀ p ∈ parts, p.1 ∈ names) (hkeys : (Table.keys parts).Nodup) :
    knownParts? names (parts.map fun p => (str p.1, p.2)) = some parts := by
  induction parts with
  | nil => rfl
  | cons p parts ih =>
      rw [List.forall_mem_cons] at hnames
      rw [Table.keys_cons, List.nodup_cons, Table.mem_keys_iff, Bool.not_eq_true] at hkeys
      rw [List.map_cons, knownParts?, partName?, if_pos hnames.1, ih hnames.2 hkeys.2]
      simp [hkeys.1]

theorem record?_ofJson {names : List String} {es : List (String × Json)}
    (hkeys : (Table.keys es).Sublist names) (hnames : names.Nodup) :
    record? names (ofJson (.obj es)) = some (es.map fun p => (p.1, ofJson p.2)) := by
  have hmap : (es.map fun p => (str p.1, ofJson p.2)) =
      (es.map fun p => (p.1, ofJson p.2)).map fun p => (str p.1, p.2) := by
    rw [List.map_map]
    rfl
  have hsame : Table.keys (es.map fun p => (p.1, ofJson p.2)) = Table.keys es := by
    rw [Table.keys, Table.keys, List.map_map]
    rfl
  rw [ofJson, ofJsonEntries_eq, record?, hmap]
  refine knownParts?_of_nodup (fun p hp => ?_) (hsame ▸ hkeys.nodup hnames)
  exact hkeys.subset (hsame ▸ List.mem_map_of_mem hp)

end Pack

open Pack

namespace EntitySnapshot

def rereadRecord (r : Record) : Record := Table.ofList (r.map fun p => (p.1, p.2.reread))

def reread (e : EntitySnapshot) : EntitySnapshot :=
  { e with components := Table.ofList (e.components.map fun p => (p.1, rereadRecord p.2)) }

theorem fieldsOf?_ofJson (r : Record) : fieldsOf? (ofJson (.obj (Value.toJsonEntries r))) =
    some (rereadRecord r) := by
  rw [ofJson, ofJsonEntries_eq, fieldsOf?, fields?_ofJson fun p _ => value?_ofJson p.2,
    Value.toJsonEntries_eq, List.map_map]
  rfl

theorem recordsOf?_ofJson (components : Table String Record) :
    recordsOf? (ofJson (recordsJson components)) =
      some (Table.ofList (components.map fun p => (p.1, rereadRecord p.2))) := by
  rw [recordsJson, ofJson, ofJsonEntries_eq, recordsOf?, List.map_map, List.mapM_map,
    mapM_of_some (g := fun p => (p.1, rereadRecord p.2))]
  · rfl
  · intro p _
    change (do return (p.1, ← fieldsOf? (ofJson (.obj (Value.toJsonEntries p.2)))) : Option _) = _
    rw [fieldsOf?_ofJson]
    rfl

theorem texts?_ofJson (texts : List String) :
    texts? (ofJson (.arr (texts.map .str))) = some texts := by
  rw [ofJson, ofJsonItems_eq, texts?, List.map_map, List.mapM_map]
  exact (mapM_of_some (g := id) fun _ _ => rfl).trans (congrArg some (List.map_id texts))

theorem entitySnapshot?_ofJson (e : EntitySnapshot) :
    entitySnapshot? (ofJson e.toJson) = some e.reread := by
  obtain ⟨name, components, boundFunctions⟩ := e
  have hkeys : (Table.keys (optional "name" Json.str name ++ ("components", recordsJson components)
      :: unlessNone "bound_functions" (boundFunctions.map .str))).Sublist
        ["name", "components", "bound_functions"] := by
    simpa using keys_optional.append (keys_unlessNone.cons_cons "components")
  rw [entitySnapshot?, toJson, record?_ofJson hkeys (by decide)]
  simp only [Table.find?_map, Table.find?_append, Table.find?, find?_optional, find?_unlessNone,
    Option.bind_eq_bind, Option.bind_some, reduceIte, String.reduceEq, false_and, true_and,
    Option.map_some, Option.or_some, Option.none_or, Option.or_none, Option.getD_none,
    recordsOf?_ofJson]
  have htexts := texts?_ofJson boundFunctions
  cases boundFunctions with
  | nil => cases name <;> rfl
  | cons f fs =>
      have hne : (f :: fs).map Json.str ≠ [] := by simp
      rw [if_pos hne, Option.map_some]
      cases name <;> (simp only [htexts]; rfl)

theorem toJson_narrow (e : EntitySnapshot) : e.toJson.all Json.narrow = true := by
  have hrecords : (recordsJson e.components).all Json.narrow = true := by
    rw [recordsJson, Json.all_obj, List.forall_mem_map]
    refine ⟨rfl, fun p _ => ?_⟩
    rw [Json.all_obj, Value.toJsonEntries_eq, List.forall_mem_map]
    exact ⟨rfl, fun q _ => q.2.toJson_narrow⟩
  rw [toJson, Json.all_obj, List.forall_mem_append, List.forall_mem_cons]
  refine ⟨rfl, ?_, hrecords, ?_⟩
  · cases e.name with
    | none => exact nofun
    | some name => exact List.forall_mem_singleton.mpr rfl
  · cases e.boundFunctions with
    | nil => exact nofun
    | cons f fs =>
        refine List.forall_mem_singleton.mpr ?_
        rw [Json.all_arr, List.forall_mem_map]
        exact ⟨rfl, fun _ _ => rfl⟩

theorem reread_eq_iff {e : EntitySnapshot} (hcomponents : Table.Ascending e.components)
    (hrecords : ∀ p ∈ e.components, Table.Ascending p.2) :
    e.reread = e ↔ ∀ p ∈ e.components, ∀ q ∈ p.2, q.2.reread = q.2 := by
  have heq : e.reread = e ↔
      Table.ofList (e.components.map fun p => (p.1, rereadRecord p.2)) = e.components := by
    obtain ⟨name, components, boundFunctions⟩ := e
    simp [reread]
  rw [heq, Table.ofList_of_ascending (hcomponents.map fun _ => rereadRecord),
    Table.map_eq_self_iff]
  refine forall₂_congr fun p hp => ?_
  rw [rereadRecord, Table.ofList_of_ascending ((hrecords p hp).map fun _ => Value.reread),
    Table.map_eq_self_iff]

end EntitySnapshot

namespace Snapshot

def reread (s : Snapshot) : Snapshot :=
  { s with entities := Table.ofList (s.entities.map fun p => (p.1, p.2.reread)) }

theorem snapshot?_toPack (s : Snapshot) : s.toPack.snapshot? = some s.reread := by
  have hparts (time entities : Pack) : record? ["time", "entities"]
      (.map [(.str "time", time), (.str "entities", entities)]) =
        some [("time", time), ("entities", entities)] := by
    have hnames : ∀ p ∈ [("time", time), ("entities", entities)], p.1 ∈ ["time", "entities"] := by
      simp
    exact knownParts?_of_nodup hnames (by simp)
  rw [snapshot?, toPack, hparts]
  have hentities : (s.entities.map fun p => (nat p.1.toNat, ofJson p.2.toJson)).mapM
      (fun p => do return (← id? p.1, ← entitySnapshot? p.2)) =
        some (s.entities.map fun p => (p.1, p.2.reread)) := by
    rw [List.mapM_map]
    refine mapM_of_some fun p _ => ?_
    change (do return (EntityId.ofNat p.1.toNat, ← entitySnapshot? (ofJson p.2.toJson)) :
      Option (EntityId × EntitySnapshot)) = _
    rw [EntitySnapshot.entitySnapshot?_ofJson, EntityId.ofNat_toNat]
    rfl
  simp only [Option.bind_eq_bind, Option.bind_some, Table.find?, reduceIte, String.reduceEq]
  change (do
    let entities ← (s.entities.map fun p => (nat p.1.toNat, ofJson p.2.toJson)).mapM
      (fun p => do return (← id? p.1, ← entitySnapshot? p.2))
    return { time := s.time, entities := Table.ofList entities } : Option Snapshot) = _
  rw [hentities]
  rfl

theorem depth_toPack (s : Snapshot) : s.toPack.depth = s.toJson.depth := by
  have hentities (es : Table EntityId EntitySnapshot) :
      depthEntries (es.map fun p => (.nat p.1.toNat, ofJson p.2.toJson)) =
        Json.depthEntries (es.map fun p => (toString p.1.toNat, p.2.toJson)) := by
    induction es with
    | nil => rfl
    | cons p es ih =>
        have hkey : (nat p.1.toNat).depth = 0 := rfl
        rw [List.map_cons, List.map_cons, depthEntries, Json.depthEntries, ih, depth_ofJson, hkey,
          Nat.zero_max]
  simp only [toPack, toJson, Pack.depth, Json.depth, depthEntries, Json.depthEntries]
  have h := hentities s.entities
  omega

theorem sized_toPack {s : Snapshot} (h : s.toJson.all Json.small = true) : s.toPack.Sized := by
  simp only [toJson, Json.all_obj, List.forall_mem_cons, List.forall_mem_map, Json.small,
    List.length_map, Bool.and_eq_true, decide_eq_true_eq] at h
  obtain ⟨-, -, ⟨⟨hlen, -⟩, hentities⟩, -⟩ := h
  simp only [toPack, Sized, SizedEntries, List.length_map, sizedEntries_iff, List.forall_mem_map]
  refine ⟨by simp, by decide, trivial, by decide, ⟨hlen, fun p hp => ⟨p.1.toNat_lt, ?_⟩⟩, trivial⟩
  exact sized_ofJson (hentities p hp) p.2.toJson_narrow

/-- A snapshot that is not nested too deep is read, up to its references and the order of maps. -/
theorem ofBytes_toBytes {s : Snapshot} (h : s.toJson.all Json.small = true) :
    Snapshot.ofBytes s.toBytes = if s.toJson.depth ≤ maxDepth then .ok s.reread
      else .error ⟨.serialization "not a snapshot", none⟩ := by
  rw [Snapshot.ofBytes, toBytes, ofBytes?_toBytes (sized_toPack h), depth_toPack]
  split_ifs
  · simp only [Option.bind_some, snapshot?_toPack]
  · rfl

structure Ordered (s : Snapshot) : Prop where
  entities : Table.Ascending s.entities
  components : ∀ p ∈ s.entities, Table.Ascending p.2.components
  records : ∀ p ∈ s.entities, ∀ q ∈ p.2.components, Table.Ascending q.2

def values (s : Snapshot) : List Value :=
  s.entities.flatMap fun p => p.2.components.flatMap fun q => Table.values q.2

def parts (s : Snapshot) : List Value := s.values.flatMap Value.parts

theorem reread_eq_iff {s : Snapshot} (h : s.Ordered) :
    s.reread = s ↔ ∀ v ∈ s.values, v.reread = v := by
  have heq : s.reread = s ↔
      Table.ofList (s.entities.map fun p => (p.1, p.2.reread)) = s.entities := by
    obtain ⟨time, entities⟩ := s
    simp [reread]
  rw [heq, Table.ofList_of_ascending (h.entities.map fun _ => EntitySnapshot.reread),
    Table.map_eq_self_iff,
    forall₂_congr fun p hp => EntitySnapshot.reread_eq_iff (h.components p hp) (h.records p hp)]
  simp only [values, Table.values, List.mem_flatMap, List.mem_map]
  constructor
  · rintro hall v ⟨p, hp, q, hq, r, hr, rfl⟩
    exact hall p hp q hq r hr
  · exact fun hall p hp q hq r hr => hall r.2 ⟨p, hp, q, hq, r, hr, rfl⟩

end Snapshot

theorem World.Ordered.snapshot {w : World} (h : w.Ordered) (time : Binary64) :
    (w.snapshot time).Ordered where
  entities := List.pairwise_map.mpr h.live
  components p hp := by
    obtain ⟨id, -, rfl⟩ := List.mem_map.mp hp
    exact (h.recordsOf id).1
  records p hp := by
    obtain ⟨id, -, rfl⟩ := List.mem_map.mp hp
    exact (h.recordsOf id).2

/-- The snapshot of a simulation is read from its bytes as it is, down to the bits of every number,
just if its references have numbers that can be read and its values are not nested too deep. Maps
are tables in the order of their keys, and a map that has the form of a reference is not asked
for. -/
theorem Simulation.snapshot_returns_iff {s : Simulation} (hr : s.Reachable)
    (hordered : ∀ es, .map es ∈ s.snapshot.parts → Table.Ascending es)
    (hmaps : ∀ es, .map es ∈ s.snapshot.parts → Table.keys es ≠ [Value.entityKey])
    (hsmall : s.snapshot.toJson.all Json.small = true) :
    Snapshot.ofBytes s.snapshot.toBytes = .ok s.snapshot ↔
      (∀ e, .entity e ∈ s.snapshot.parts →
        e.toNat < 2 ^ 63 ∨ 2048 ∣ e.toNat ∨ e.toNat = 2 ^ 64 - 1) ∧
        s.snapshot.toJson.depth ≤ Pack.maxDepth := by
  have hworld : s.snapshot.Ordered := hr.world.ordered.snapshot s.time
  have hmap (v : Value) (hv : v ∈ s.snapshot.values) (es : List (String × Value))
      (hes : .map es ∈ v.parts) : Table.Ascending es ∧ Table.keys es ≠ [Value.entityKey] :=
    have hes := List.mem_flatMap.mpr ⟨v, hv, hes⟩
    ⟨hordered es hes, hmaps es hes⟩
  have hvalues : s.snapshot.reread = s.snapshot ↔ ∀ e, .entity e ∈ s.snapshot.parts → e.Exact := by
    rw [Snapshot.reread_eq_iff hworld, forall₂_congr fun v hv => Value.reread_eq_iff (hmap v hv)]
    simp only [Snapshot.parts, List.mem_flatMap]
    exact ⟨fun hall e ⟨v, hv, he⟩ => hall v hv e he, fun hall v hv e he => hall e ⟨v, hv, he⟩⟩
  simp only [EntityId.exact_iff] at hvalues
  rw [Snapshot.ofBytes_toBytes hsmall, ← hvalues]
  split_ifs with hd
  · simp [hd]
  · simp [hd]

namespace Simulation

def scouting (goal : EntityId) : Simulation :=
  (new {}).operate (.setInitialEntities [⟨some (2 ^ 64 - 1), some "scout", [("Order",
    [("goal", .entity goal), ("route", .list [.float ⟨0x7FF8000000000001⟩,
      .map [("at", .int (-3)), ("via", .null)]])])], []⟩])

theorem scouting_reachable (goal : EntityId) : (scouting goal).Reachable := .operation _ (.new {})

def scouted (goal : EntityId) : Snapshot :=
  ⟨.zero, [(.ofNat (2 ^ 64 - 1), ⟨some "scout", [("Order", [("goal", .entity goal),
    ("route", .list [.float ⟨0x7FF8000000000001⟩, .map [("at", .int (-3)), ("via", .null)]])])],
    []⟩)]⟩

/-- A reference that can be read. -/
theorem scouting_returns : (scouting (.ofNat (2 ^ 64 - 2048))).snapshot =
      scouted (.ofNat (2 ^ 64 - 2048)) ∧
    Snapshot.ofBytes (scouted (.ofNat (2 ^ 64 - 2048))).toBytes =
      .ok (scouted (.ofNat (2 ^ 64 - 2048))) := by
  have hs : (scouting (.ofNat (2 ^ 64 - 2048))).snapshot = scouted (.ofNat (2 ^ 64 - 2048)) := by
    decide +kernel
  have hmaps : ∀ v ∈ (scouted (.ofNat (2 ^ 64 - 2048))).parts, ∀ es ∈ v.asMap?,
      Table.Ascending es ∧ Table.keys es ≠ [Value.entityKey] := by decide +kernel
  have hreferences : ∀ v ∈ (scouted (.ofNat (2 ^ 64 - 2048))).parts, ∀ e ∈ v.asEntity?,
      e.toNat < 2 ^ 63 ∨ 2048 ∣ e.toNat ∨ e.toNat = 2 ^ 64 - 1 := by decide +kernel
  have hiff := snapshot_returns_iff (scouting_reachable (.ofNat (2 ^ 64 - 2048)))
  rw [hs] at hiff
  refine ⟨hs, (hiff (fun es hes => (hmaps _ hes es rfl).1) (fun es hes => (hmaps _ hes es rfl).2)
    (by decide +kernel)).mpr ?_⟩
  exact ⟨fun e he => hreferences _ he e rfl, by decide +kernel⟩

/-- One number past the signed range, the scout is read as sent to a neighbour. -/
theorem scouting_misread : (scouting (.ofNat (2 ^ 63 + 1))).Reachable ∧
    (scouting (.ofNat (2 ^ 63 + 1))).snapshot = scouted (.ofNat (2 ^ 63 + 1)) ∧
    (∀ v ∈ (scouted (.ofNat (2 ^ 63 + 1))).parts, ∀ es ∈ v.asMap?,
      Table.Ascending es ∧ Table.keys es ≠ [Value.entityKey]) ∧
    Snapshot.ofBytes (scouted (.ofNat (2 ^ 63 + 1))).toBytes = .ok (scouted (.ofNat (2 ^ 63))) ∧
    scouted (.ofNat (2 ^ 63)) ≠ scouted (.ofNat (2 ^ 63 + 1)) := by
  have hreread : (scouted (.ofNat (2 ^ 63 + 1))).reread = scouted (.ofNat (2 ^ 63)) := by
    decide +kernel
  refine ⟨scouting_reachable _, by decide +kernel, by decide +kernel, ?_, by decide +kernel⟩
  rw [Snapshot.ofBytes_toBytes (by decide +kernel), if_pos (by decide +kernel), hreread]

end Simulation

end RuleSim
