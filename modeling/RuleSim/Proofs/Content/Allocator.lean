import RuleSim.Proofs.Content.Atomic
import RuleSim.Proofs.Value.Reference

namespace RuleSim.EntityStore

variable {s s' : EntityStore} {d : EntityDecl} {ds : List EntityDecl} {id : EntityId}

def Ahead (s : EntityStore) : Prop := ∀ id ∈ s.live, id.toNat < s.next

def nextAfter (next : Nat) (d : EntityDecl) : Nat :=
  match d.id with
  | some n => max next (n + 1)
  | none => next + 1

def standsAt (next : Nat) (ds : List EntityDecl) : Nat := ds.foldl nextAfter next

theorem le_nextAfter (next : Nat) (d : EntityDecl) : next ≤ nextAfter next d := by
  rw [nextAfter]
  split <;> omega

theorem le_standsAt (next : Nat) (ds : List EntityDecl) : next ≤ standsAt next ds := by
  induction ds generalizing next with
  | nil => exact le_rfl
  | cons d ds ih => exact (le_nextAfter next d).trans (ih _)

theorem standsAt_append (next : Nat) (ds ds' : List EntityDecl) :
    standsAt next (ds ++ ds') = standsAt (standsAt next ds) ds' := List.foldl_append

theorem Ahead.next_not_mem (h : s.Ahead) (hroom : s.next < 2 ^ 64) :
    EntityId.ofNat s.next ∉ s.live := by
  intro hmem
  have hbehind := h _ hmem
  rw [EntityId.toNat_ofNat hroom] at hbehind
  exact lt_irrefl _ hbehind

theorem Ahead.spawn (h : s.Ahead) (hroom : s.next < 2 ^ 64) :
    s.spawn = (.ofNat s.next, ⟨s.live.insert (.ofNat s.next), (s.next + 1) % 2 ^ 64⟩) := by
  have hfirst : firstFree s.live s.next s.live.length = s.next := by
    cases s.live.length with
    | zero => rfl
    | succ fuel => exact if_neg (h.next_not_mem hroom)
  rw [EntityStore.spawn, hfirst]

theorem Ahead.enter_none (hs : s.Ahead) (hroom : s.next < 2 ^ 64) (hd : d.id = none) :
    s.enter d =
      .ok (.ofNat s.next, ⟨s.live.insert (.ofNat s.next), (s.next + 1) % 2 ^ 64⟩) := by
  rw [EntityStore.enter, hd, ← hs.spawn hroom]

theorem Ahead.of_enter (hs : s.Ahead) (h : s.enter d = .ok (id, s')) (hid : id.toNat < s'.next)
    (hle : s.next ≤ s'.next) : s'.Ahead := by
  intro x hx
  rcases (enter_live h x).mp hx with rfl | hx
  · exact hid
  · exact (hs x hx).trans_le hle

theorem Ahead.enter (hs : s.Ahead) (hroom : nextAfter s.next d < 2 ^ 64)
    (h : s.enter d = .ok (id, s')) : s'.Ahead ∧ s'.next = nextAfter s.next d := by
  have hnext : s.next < 2 ^ 64 := (le_nextAfter s.next d).trans_lt hroom
  suffices hat : id.toNat < s'.next ∧ s'.next = nextAfter s.next d from
    ⟨hs.of_enter h hat.1 (hat.2 ▸ le_nextAfter s.next d), hat.2⟩
  rcases s.enter_cases d with ⟨hd, -⟩ | ⟨n, hd, ⟨-, e, h'⟩ | ⟨-, h'⟩⟩
  · cases h.symm.trans (hs.enter_none hnext hd)
    rw [nextAfter, hd] at hroom ⊢
    dsimp only at hroom ⊢
    rw [EntityId.toNat_ofNat hnext, Nat.mod_eq_of_lt hroom]
    exact ⟨Nat.lt_succ_self _, rfl⟩
  · cases h.symm.trans h'
  · cases h.symm.trans h'
    rw [nextAfter, hd] at hroom ⊢
    dsimp only at hroom ⊢
    rw [occupied, EntityId.toNat_ofNat (by omega), maxId]
    dsimp only
    omega

/-- What the allocator gives out is where it stands when an entity comes that asks for nothing. -/
theorem Ahead.of_mem_allocated (hs : s.Ahead) (hroom : standsAt s.next ds < 2 ^ 64)
    (h : id ∈ s.allocated ds) : ∃ before d after, ds = before ++ d :: after ∧ d.id = none ∧
      id = .ofNat (standsAt s.next before) := by
  induction ds generalizing s with
  | nil => cases h
  | cons d ds ih =>
      have hnext : nextAfter s.next d < 2 ^ 64 := (le_standsAt _ ds).trans_lt hroom
      cases he : s.enter d with
      | error e =>
          rw [allocated, he] at h
          cases h
      | ok p =>
          obtain ⟨x, t⟩ := p
          obtain ⟨ht, hat⟩ := hs.enter hnext he
          have hlater (hmem : id ∈ t.allocated ds) : ∃ before f after,
              d :: ds = before ++ f :: after ∧ f.id = none ∧
                id = .ofNat (standsAt s.next before) := by
            obtain ⟨before, f, after, rfl, hf, rfl⟩ := ih ht (hat ▸ hroom) hmem
            exact ⟨d :: before, f, after, rfl, hf, hat ▸ rfl⟩
          rw [allocated_cons he] at h
          split at h
          · next hd =>
              rw [Option.isNone_iff_eq_none] at hd
              rcases List.mem_cons.mp h with rfl | h
              · refine ⟨[], d, ds, rfl, hd, ?_⟩
                cases he.symm.trans (hs.enter_none ((le_nextAfter _ d).trans_lt hnext) hd)
                rfl
              · exact hlater h
          · exact hlater h

/-- An entity asks for the number at which the allocator stands when one before it comes that asks
for none. -/
def Overtaken (next : Nat) (ds : List EntityDecl) : Prop :=
  ∃ before d between f after, ds = before ++ d :: (between ++ f :: after) ∧ d.id = none ∧
    f.id = some (standsAt next before)

theorem Overtaken.clash (hs : s.Ahead) (hroom : standsAt s.next ds < 2 ^ 64)
    (h : Overtaken s.next ds) : s.Clash ds := by
  obtain ⟨before, d, between, f, after, rfl, hd, hf⟩ := h
  induction before generalizing s with
  | nil =>
      refine ⟨d :: between, f, after, _, rfl, hf, .inr (.inr ?_)⟩
      have hnext : s.next < 2 ^ 64 := (le_standsAt _ _).trans_lt hroom
      rw [allocated_cons (hs.enter_none hnext hd), hd]
      exact List.mem_cons_self
  | cons g before ih =>
      cases he : s.enter g with
      | error e =>
          obtain ⟨n, hg, hn⟩ := enter_error_iff.mp ⟨e, he⟩
          exact ⟨[], g, _, n, rfl, hg, .inl hn⟩
      | ok p =>
          obtain ⟨x, t⟩ := p
          obtain ⟨ht, hat⟩ := hs.enter ((le_standsAt _ _).trans_lt hroom) he
          exact (clash_cons he _).mpr (ih ht (hat ▸ hroom) (hat ▸ hf))

/-- From a document alone one can tell whether the allocator gives to an entity what a later one
asks for, as long as it does not come to the last number. -/
theorem forestalled_iff_overtaken {m : Module} (hm : m.Accepted)
    (hroom : standsAt 0 m.initialEntities < 2 ^ 64) :
    empty.Forestalled m.initialEntities ↔ Overtaken 0 m.initialEntities := by
  have hempty : empty.Ahead := fun _ h => absurd h List.not_mem_nil
  constructor
  · rintro ⟨before, f, after, n, heq, hf, hmem⟩
    have hbefore : standsAt 0 before < 2 ^ 64 := by
      rw [heq, standsAt_append] at hroom
      exact (le_standsAt _ _).trans_lt hroom
    obtain ⟨before, d, between, rfl, hd, hn⟩ := hempty.of_mem_allocated hbefore hmem
    rw [standsAt_append] at hbefore
    have hstands : standsAt 0 before < 2 ^ 64 := (le_standsAt _ _).trans_lt hbefore
    have hbound : n < 2 ^ 64 := hm.bounded f (by simp [heq]) n hf
    cases EntityId.ofNat_inj hbound hstands hn
    exact ⟨before, d, between, f, after, by simp [heq], hd, hf⟩
  · intro h
    exact (clash_iff_forestalled hm (.refl _) fun _ _ _ _ => List.not_mem_nil).mp
      (Overtaken.clash hempty hroom h)

end RuleSim.EntityStore
