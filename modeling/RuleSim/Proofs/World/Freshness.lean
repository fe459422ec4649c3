import RuleSim.Proofs.Content.Allocator
import RuleSim.Proofs.World.Cloning

namespace RuleSim

namespace EntityStore

variable {s s' : EntityStore} {chosen : EntityId → Prop} {x : EntityId}

inductive Moves (chosen : EntityId → Prop) (s : EntityStore) : EntityStore → Prop
  | keep : Moves chosen s s
  | destroy (id : EntityId) : Moves chosen s { s with live := s.live.erase id }
  | spawn : Moves chosen s s.spawn.2
  | occupy {id : EntityId} (hid : chosen id) : Moves chosen s (s.occupied id)

theorem Ahead.toNat_spawn (hs : s.Ahead) (hroom : s.next ≤ maxId) :
    s.spawn.1.toNat = s.next := by
  have hnext : s.next < 2 ^ 64 := hroom.trans_lt (by decide)
  rw [hs.spawn hnext, EntityId.toNat_ofNat hnext]

theorem Ahead.next_spawn (hs : s.Ahead) (hroom : s.next < maxId) :
    s.spawn.2.next = s.next + 1 := by
  rw [hs.spawn (hroom.trans (by decide))]
  exact Nat.mod_eq_of_lt (Nat.add_lt_of_lt_sub hroom)

/-- Below the last number the allocator gets past every entity that comes to life. -/
theorem Moves.ahead (h : Moves chosen s s') (hs : s.Ahead) (hroom : s.next ≤ maxId)
    (hids : ∀ id ∈ s'.live, id.toNat < maxId) :
    s'.Ahead ∧ s.next ≤ s'.next ∧ s'.next ≤ maxId := by
  cases h with
  | keep => exact ⟨hs, le_rfl, hroom⟩
  | destroy id => exact ⟨fun x hx => hs x (List.mem_of_mem_filter hx), le_rfl, hroom⟩
  | spawn =>
      have hid := hs.toNat_spawn hroom
      have hnew := hids _ ((s.spawn_live _).mpr (.inl rfl))
      rw [hid] at hnew
      have hnext := hs.next_spawn hnew
      rw [hnext]
      refine ⟨fun x hx => ?_, Nat.le_succ _, hnew⟩
      rw [hnext]
      rcases (s.spawn_live x).mp hx with rfl | hx
      · rw [hid]
        exact Nat.lt_succ_self _
      · exact (hs x hx).trans (Nat.lt_succ_self _)
  | @occupy id =>
      have hnew : id.toNat < maxId := hids id ((OrderedSet.mem_insert ..).mpr (.inl rfl))
      have hnext : (s.occupied id).next = max s.next (id.toNat + 1) := by
        rw [occupied, min_eq_left hnew]
      rw [hnext]
      refine ⟨fun x hx => ?_, le_max_left .., max_le hroom hnew⟩
      rw [hnext]
      rcases (OrderedSet.mem_insert ..).mp hx with rfl | hx
      · exact lt_max_of_lt_right (Nat.lt_succ_self _)
      · exact lt_max_of_lt_left (hs x hx)

theorem Moves.not_live (h : Moves chosen s s') (hs : s.Ahead) (hroom : s.next ≤ maxId)
    (hx : x.toNat < s.next) (hdead : x ∉ s.live) (hchosen : ¬ chosen x) : x ∉ s'.live := by
  cases h with
  | keep => exact hdead
  | destroy id => exact fun hmem => hdead (List.mem_of_mem_filter hmem)
  | spawn =>
      intro hmem
      rcases (s.spawn_live x).mp hmem with rfl | hmem
      · rw [hs.toNat_spawn hroom] at hx
        exact lt_irrefl _ hx
      · exact hdead hmem
  | occupy hid =>
      intro hmem
      rcases (OrderedSet.mem_insert ..).mp hmem with rfl | hmem
      · exact hchosen hid
      · exact hdead hmem

end EntityStore

namespace World

variable {w : World} {id x : EntityId} {r : Request} {rs rs' : List Request}

def Request.Clears : Request → Prop
  | .clear | .clearEntities => True
  | _ => False

def Request.Chooses (r : Request) (id : EntityId) : Prop :=
  r = .createWithId id ∨ ∃ source, r = .clone source (some id)

theorem guarded_entities {f : Except Error World} (h : (w.orKeep f).entities = w.entities) :
    (w.orKeep (do w.validate id; f)).entities = w.entities :=
  guarded_relates (R := fun w w' => w'.entities = w.entities) rfl h

theorem perform_moves (w : World) (hr : ¬ r.Clears) :
    w.entities.Moves r.Chooses (w.perform r).entities := by
  have hkeep (h : (w.perform r).entities = w.entities) :
      w.entities.Moves r.Chooses (w.perform r).entities := h ▸ .keep
  cases r with
  | create => exact .spawn
  | createWithId id =>
      rcases w.createWithId_cases id with ⟨-, e, h⟩ | ⟨-, h⟩
      · rw [perform, h]
        exact .keep
      · rw [perform, h]
        exact .occupy (.inl rfl)
  | delete id =>
      rcases w.delete_cases id with ⟨-, e, h⟩ | ⟨-, h⟩
      · rw [perform, h]
        exact .keep
      · rw [perform, h]
        exact .destroy id
  | setName | addComponent | setBoundFunction => exact hkeep (guarded_entities rfl)
  | removeComponent id component =>
      apply hkeep
      rcases w.removeComponent_cases id component with h | h
      · rw [h]
      · rw [h]
        rfl
  | setField id component field v =>
      apply hkeep
      apply guarded_entities
      cases w.components.setField? id component field v <;> rfl
  | mergeField component f => exact hkeep (samePlaces_mergeField component f).entities
  | register => exact .keep
  | clone source target =>
      rcases w.clone_cases source target with ⟨-, h⟩ | ⟨-, x, -, -, h⟩ | ⟨-, x, v, hv, h⟩
      · rw [perform, h]
        exact .keep
      · rw [perform, h]
        exact .keep
      · rw [perform, h]
        cases hv with
        | fresh => exact .spawn
        | chosen => exact .occupy (.inr ⟨source, rfl⟩)
  | clearEntities | clear => exact absurd trivial hr

inductive Emptied : World → Prop
  | new : Emptied empty
  | clear (w : World) : Emptied w.clear
  | clearEntities (w : World) : Emptied w.clearEntities

theorem Emptied.entities (h : Emptied w) : w.entities = .empty := by
  cases h with
  | new | clear | clearEntities => rfl

/-- The entity was live before the requests, or at some time while they were made. -/
def EverLive (w : World) (rs : List Request) (id : EntityId) : Prop :=
  ∃ before, before <+: rs ∧ (w.after before).hasEntity id = true

def Bounded (w : World) (rs : List Request) : Prop := ∀ id, EverLive w rs id → id.toNat < 2 ^ 64 - 1

theorem bounded_iff : Bounded w rs ↔
    ∀ before ∈ rs.inits, ∀ id ∈ (w.after before).entities.live, id.toNat < 2 ^ 64 - 1 := by
  constructor
  · intro h before hbefore id hid
    exact h id ⟨before, (List.mem_inits ..).mp hbefore, decide_eq_true hid⟩
  · rintro h id ⟨before, hbefore, hlive⟩
    exact h before ((List.mem_inits ..).mpr hbefore) id (of_decide_eq_true hlive)

instance (w : World) (rs : List Request) : Decidable (Bounded w rs) :=
  decidable_of_iff' _ bounded_iff

theorem everLive_nil : EverLive w [] id ↔ id ∈ w.entities.live := by
  constructor
  · rintro ⟨before, hbefore, hlive⟩
    obtain rfl := List.prefix_nil.mp hbefore
    exact of_decide_eq_true hlive
  · intro h
    exact ⟨[], List.prefix_rfl, decide_eq_true h⟩

theorem everLive_concat : EverLive w (rs ++ [r]) id ↔
    EverLive w rs id ∨ id ∈ ((w.after rs).perform r).entities.live := by
  have hlast : w.after (rs ++ [r]) = (w.after rs).perform r := w.after_append rs [r]
  constructor
  · rintro ⟨before, hbefore, hlive⟩
    rcases List.prefix_concat_iff.mp hbefore with rfl | hbefore
    · exact .inr (of_decide_eq_true (hlast ▸ hlive))
    · exact .inl ⟨before, hbefore, hlive⟩
  · rintro (⟨before, hbefore, hlive⟩ | hlive)
    · exact ⟨before, hbefore.trans (List.prefix_append ..), hlive⟩
    · exact ⟨_, List.prefix_rfl, hlast ▸ decide_eq_true hlive⟩

structure Ahead (w : World) (rs : List Request) : Prop where
  room : (w.after rs).entities.next ≤ EntityStore.maxId
  past : ∀ id, EverLive w rs id → id.toNat < (w.after rs).entities.next

theorem Ahead.store (h : Ahead w rs) : (w.after rs).entities.Ahead :=
  fun id hid => h.past id ⟨rs, List.prefix_rfl, decide_eq_true hid⟩

theorem Bounded.of_append (h : Bounded w (rs ++ rs')) : Bounded w rs := by
  rintro id ⟨before, hbefore, hlive⟩
  exact h id ⟨before, hbefore.trans (List.prefix_append ..), hlive⟩

theorem Emptied.ahead (hw : Emptied w) (hrs : ∀ r ∈ rs, ¬ r.Clears) (hids : Bounded w rs) :
    Ahead w rs := by
  -- From the end, so that the history of all requests but the last is that of the hypothesis.
  induction rs using List.reverseRecOn with
  | nil =>
      have hnext : w.entities.next = 0 := by rw [hw.entities]; rfl
      refine ⟨hnext ▸ Nat.zero_le _, fun id hid => ?_⟩
      rw [everLive_nil, hw.entities] at hid
      exact absurd hid List.not_mem_nil
  | append_singleton rs r ih =>
      have hbefore := ih (fun r hr => hrs r (List.mem_append_left _ hr)) hids.of_append
      have hmoves := (w.after rs).perform_moves (hrs r (by simp))
      obtain ⟨hahead, hle, hroom⟩ := hmoves.ahead hbefore.store hbefore.room fun id hid =>
        hids id (everLive_concat.mpr (.inr hid))
      have hlast : w.after (rs ++ [r]) = (w.after rs).perform r := w.after_append rs [r]
      refine ⟨hlast ▸ hroom, fun id hid => ?_⟩
      rw [hlast]
      rcases everLive_concat.mp hid with hid | hid
      · exact (hbefore.past id hid).trans_le hle
      · exact hahead id hid

theorem Ahead.lt_spawn (h : Ahead w rs) (hx : EverLive w rs x) :
    x < (w.after rs).entities.spawn.1 := by
  apply UInt64.lt_iff_toNat_lt.mpr
  exact (h.past x hx).trans_eq (h.store.toNat_spawn h.room).symm

/-- What has died stays dead as long as nobody chooses its identifier. -/
theorem Emptied.stays_dead (hw : Emptied w) (hx : EverLive w rs x)
    (hdead : (w.after rs).hasEntity x = false) (hrs : ∀ r ∈ rs ++ rs', ¬ r.Clears)
    (hids : Bounded w (rs ++ rs')) (hchosen : ∀ r ∈ rs', ¬ r.Chooses x) :
    (w.after (rs ++ rs')).hasEntity x = false := by
  induction rs' using List.reverseRecOn with
  | nil => rwa [List.append_nil]
  | append_singleton rs' r ih =>
      rw [← List.append_assoc] at hrs hids ⊢
      have hearlier := fun r hr => hrs r (List.mem_append_left [_] hr)
      have hstill := ih hearlier hids.of_append fun r hr =>
        hchosen r (List.mem_append_left _ hr)
      have hahead := hw.ahead hearlier hids.of_append
      obtain ⟨before, hbefore, hlive⟩ := hx
      have hpast := hahead.past x ⟨before, hbefore.trans (List.prefix_append ..), hlive⟩
      rw [after_append]
      apply decide_eq_false
      exact ((w.after (rs ++ rs')).perform_moves (hrs r (by simp))).not_live hahead.store
        hahead.room hpast (of_decide_eq_false hstill) (hchosen r (by simp))

/-- Since a world was new or last cleared, whatever was asked of it and as long as identifiers stay
below the last one: a new entity has an identifier above all that were ever live, and so has a copy
without a target. An entity that has died is not found again unless its identifier is chosen. -/
theorem allocated_fresh (hw : Emptied w) (hrs : ∀ r ∈ rs, ¬ r.Clears) (hids : Bounded w rs) :
    (∀ x, EverLive w rs x → x < (w.after rs).create.1) ∧
      (∀ source id w', (w.after rs).clone source none = .ok (id, w') →
        ∀ x, EverLive w rs x → x < id) ∧
      ∀ x, EverLive w rs x → (w.after rs).hasEntity x = false → ∀ rs',
        (∀ r ∈ rs', ¬ r.Clears ∧ ¬ r.Chooses x) → Bounded w (rs ++ rs') →
          (w.after (rs ++ rs')).hasEntity x = false := by
  have hahead := hw.ahead hrs hids
  refine ⟨fun x => hahead.lt_spawn, ?_, ?_⟩
  · intro source id w' h x hx
    obtain ⟨-, v, hv, -⟩ := clone_ok h
    cases hv with
    | fresh => exact hahead.lt_spawn hx
  · intro x hx hdead rs' hrs' hids'
    apply hw.stays_dead hx hdead _ hids' fun r hr => (hrs' r hr).2
    intro r hr
    rcases List.mem_append.mp hr with hr | hr
    · exact hrs r hr
    · exact (hrs' r hr).1

def visit : List Request := [.createWithId (.ofNat 7), .delete (.ofNat 7)]

theorem visit_fresh : EverLive endowed.clearEntities visit (.ofNat 7) ∧
    EntityId.ofNat 7 < (endowed.clearEntities.after visit).create.1 ∧
      (endowed.clearEntities.after (visit ++ [.create, .create])).hasEntity (.ofNat 7) = false := by
  have hlive : EverLive endowed.clearEntities visit (.ofNat 7) :=
    ⟨visit.take 1, List.take_prefix .., by decide +kernel⟩
  have hkept : ∀ r ∈ visit, ¬ r.Clears := by simp [visit, Request.Clears]
  obtain ⟨hcreate, -, hdead⟩ := allocated_fresh (.clearEntities endowed) hkept (by decide +kernel)
  refine ⟨hlive, hcreate _ hlive, hdead _ hlive (by decide +kernel) _ ?_ (by decide +kernel)⟩
  simp [Request.Clears, Request.Chooses]

end World

end RuleSim
