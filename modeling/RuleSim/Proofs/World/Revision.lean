import RuleSim.Proofs.World.Requests

namespace RuleSim

namespace World

structure EntityState where
  entities : EntityStore
  data : Table String (Table EntityId Record)
  attached : Table EntityId (OrderedSet String)
  bound : Table EntityId (Fields BoundFunction)
  names : Table String EntityId

def state (w : World) : EntityState :=
  ⟨w.entities, w.components.data, w.components.attached, w.bound, w.names⟩

/-- Nothing happened to the entities, or it was counted. -/
def Counted (w w' : World) : Prop :=
  (w'.state = w.state ∧ w'.revision = w.revision) ∨ w'.revision = w.revision + 1

theorem Enters.revision {w w' : World} {id : EntityId} (h : Enters w id w') :
    w'.revision = w.revision + 1 := by
  cases h with
  | fresh | chosen => rfl

theorem Effect.counted {w w' : World} (h : Effect w w') : Counted w w' := by
  cases h with
  | keep => exact .inl ⟨rfl, rfl⟩
  | enter h => exact .inr h.revision
  | clone h => exact .inr h.revision
  | delete | name | attach | remove | write | bind | clearEntities => exact .inr rfl

theorem mergeField_counted (w : World) (component : String) (f : FieldSchema) :
    Counted w (w.mergeField component f) := by
  obtain ⟨schema, -, ⟨-, h⟩ | h⟩ := w.mergeField_cases component f
  · rw [h]
    exact .inl ⟨rfl, rfl⟩
  · rw [h]
    exact .inr rfl

theorem perform_counted (w : World) (r : Request) : Counted w (w.perform r) := by
  cases r with
  | mergeField component f => exact w.mergeField_counted component f
  | register schema => exact .inl ⟨rfl, rfl⟩
  | clear => exact .inr rfl
  | _ => exact Effect.counted (w.perform_effect trivial)

/-- The revision counts some of the requests, and if it counts none then nothing happened. -/
theorem after_counted (w : World) (rs : List Request) :
    ∃ k ≤ rs.length, (w.after rs).revision = w.revision + UInt64.ofNat k ∧
      (k = 0 → (w.after rs).state = w.state) := by
  induction rs generalizing w with
  | nil => exact ⟨0, le_rfl, by simp [after], fun _ => rfl⟩
  | cons r rs ih =>
      obtain ⟨k, hk, hrev, hstate⟩ := ih (w.perform r)
      change (w.after (r :: rs)).revision = _ at hrev
      rcases w.perform_counted r with ⟨hsame, hr⟩ | hr
      · refine ⟨k, hk.trans (Nat.le_succ _), by rw [hrev, hr], fun h0 => ?_⟩
        exact (hstate h0).trans hsame
      · refine ⟨k + 1, Nat.succ_le_succ hk, ?_, fun h0 => absurd h0 k.succ_ne_zero⟩
        rw [hrev, hr, UInt64.ofNat_add, UInt64.add_assoc, UInt64.add_comm 1]
        rfl

/-- A revision that is the same has not moved. -/
theorem state_after {w : World} {rs : List Request} (hlen : rs.length < 2 ^ 64)
    (h : (w.after rs).revision = w.revision) : (w.after rs).state = w.state := by
  obtain ⟨k, hk, hrev, hstate⟩ := w.after_counted rs
  have hzero : UInt64.ofNat k = 0 := by
    rw [h] at hrev
    exact (UInt64.add_eq_left.mp hrev.symm)
  refine hstate ?_
  have hmod : k % 2 ^ 64 = 0 := by simpa using congrArg UInt64.toNat hzero
  omega

/-- What can be read of entities is in the state. -/
theorem snapshot_of_state {w w' : World} (h : w'.state = w.state) (time : Binary64) :
    w'.snapshot time = w.snapshot time := by
  simp only [state, EntityState.mk.injEq] at h
  obtain ⟨hentities, hdata, hattached, hbound, hnames⟩ := h
  have hrecords (id : EntityId) : w'.recordsOf id = w.recordsOf id := by
    simp only [recordsOf, componentsOf, component?, ComponentStore.components,
      ComponentStore.get?, ComponentStore.instances, hdata, hattached]
  simp only [snapshot, snapshotEntity, entityIds, nameOf?, boundFunctionNames, functionsOf,
    hentities, hnames, hbound, hrecords]

end World

end RuleSim
