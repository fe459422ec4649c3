import Mathlib.Data.List.Nodup
import RuleSim.Content

namespace RuleSim

theorem EntityId.ofNat_eq_iff {k n : Nat} :
    ofNat k = ofNat n ↔ k % 2 ^ 64 = n % 2 ^ 64 := by
  rw [ofNat, ofNat, mk.injEq, ← UInt64.toNat_inj, Nat.toUInt64_eq,
    Nat.toUInt64_eq, UInt64.toNat_ofNat', UInt64.toNat_ofNat']

namespace EntityStore

theorem validate_of_mem {s : EntityStore} {id : EntityId} (h : id ∈ s.live) :
    s.validate id = .ok () := if_pos h

theorem spawn_live (s : EntityStore) (id : EntityId) :
    id ∈ s.spawn.2.live ↔ id = s.spawn.1 ∨ id ∈ s.live := OrderedSet.mem_insert ..

def enter (s : EntityStore) (d : EntityDecl) : Except Error (EntityId × EntityStore) :=
  match d.id with
  | some n => (s.insert (.ofNat n)).map (EntityId.ofNat n, ·)
  | none => .ok s.spawn

def occupied (s : EntityStore) (id : EntityId) : EntityStore where
  live := s.live.insert id
  next := max s.next (min (id.toNat + 1) maxId)

theorem insert_of_mem {s : EntityStore} {id : EntityId} (h : id ∈ s.live) :
    s.insert id = .error ⟨.entityExists id, none⟩ := if_pos h

theorem insert_of_not_mem {s : EntityStore} {id : EntityId} (h : id ∉ s.live) :
    s.insert id = .ok (s.occupied id) := if_neg h

theorem enter_cases (s : EntityStore) (d : EntityDecl) :
    (d.id = none ∧ s.enter d = .ok s.spawn) ∨ ∃ n, d.id = some n ∧
      (EntityId.ofNat n ∈ s.live ∧ (∃ e, s.enter d = .error e) ∨
        EntityId.ofNat n ∉ s.live ∧ s.enter d = .ok (.ofNat n, s.occupied (.ofNat n))) := by
  unfold enter
  cases d.id with
  | none => exact .inl ⟨rfl, rfl⟩
  | some n =>
      refine .inr ⟨n, rfl, ?_⟩
      by_cases hn : EntityId.ofNat n ∈ s.live
      · exact .inl ⟨hn, _, congrArg (Except.map _) (insert_of_mem hn)⟩
      · exact .inr ⟨hn, congrArg (Except.map _) (insert_of_not_mem hn)⟩

theorem enter_error_iff {s : EntityStore} {d : EntityDecl} :
    (∃ e, s.enter d = .error e) ↔ ∃ n, d.id = some n ∧ EntityId.ofNat n ∈ s.live := by
  rcases s.enter_cases d with ⟨hd, h⟩ | ⟨n, hd, ⟨hn, he⟩ | ⟨hn, h⟩⟩
  · simp [hd, h]
  · exact iff_of_true he ⟨n, hd, hn⟩
  · simp [hd, h, hn]

theorem enter_live {s s' : EntityStore} {d : EntityDecl} {id : EntityId}
    (h : s.enter d = .ok (id, s')) (x : EntityId) : x ∈ s'.live ↔ x = id ∨ x ∈ s.live := by
  rcases s.enter_cases d with ⟨-, h'⟩ | ⟨n, -, ⟨-, e, h'⟩ | ⟨-, h'⟩⟩
  · have hs := s.spawn_live x
    rw [h, Except.ok.injEq] at h'
    rwa [← h'] at hs
  · simp [h] at h'
  · rw [h, Except.ok.injEq, Prod.mk.injEq] at h'
    obtain ⟨rfl, rfl⟩ := h'
    exact OrderedSet.mem_insert ..

theorem enter_id {s s' : EntityStore} {d : EntityDecl} {id : EntityId} {n : Nat}
    (h : s.enter d = .ok (id, s')) (hd : d.id = some n) : id = .ofNat n := by
  rcases s.enter_cases d with ⟨hd', -⟩ | ⟨k, hd', ⟨-, e, h'⟩ | ⟨-, h'⟩⟩
  · simp [hd] at hd'
  · simp [h] at h'
  · rw [h, Except.ok.injEq, Prod.mk.injEq] at h'
    rw [hd, Option.some.injEq] at hd'
    rw [h'.1, hd']

def allocated (s : EntityStore) : List EntityDecl → List EntityId
  | [] => []
  | d :: ds =>
    match s.enter d with
    | .ok (id, s) => if d.id.isNone then id :: allocated s ds else allocated s ds
    | .error _ => []

/-- An entity asks for an identifier that is live when its turn comes. -/
def Clash (s : EntityStore) (ds : List EntityDecl) : Prop :=
  ∃ before d after n, ds = before ++ d :: after ∧ d.id = some n ∧
    (EntityId.ofNat n ∈ s.live ∨ (∃ k ∈ before.filterMap (·.id), EntityId.ofNat k = .ofNat n) ∨
      EntityId.ofNat n ∈ s.allocated before)

theorem allocated_cons {s s' : EntityStore} {d : EntityDecl} {id : EntityId}
    (h : s.enter d = .ok (id, s')) (ds : List EntityDecl) : s.allocated (d :: ds) =
      if d.id.isNone then id :: s'.allocated ds else s'.allocated ds := by
  rw [allocated, h]

def Taken (s : EntityStore) (before : List EntityDecl) (x : EntityId) : Prop :=
  x ∈ s.live ∨ (∃ k ∈ before.filterMap (·.id), EntityId.ofNat k = x) ∨ x ∈ s.allocated before

/-- What has become live by one entity counts as live for the others. -/
theorem taken_cons {s s' : EntityStore} {d : EntityDecl} {id : EntityId}
    (h : s.enter d = .ok (id, s')) (before : List EntityDecl) (x : EntityId) :
    s.Taken (d :: before) x ↔ s'.Taken before x := by
  rw [Taken, Taken, enter_live h, allocated_cons h]
  cases hd : d.id with
  | none =>
      have hasked : (d :: before).filterMap (·.id) = before.filterMap (·.id) :=
        List.filterMap_cons_none hd
      rw [hasked, if_pos Option.isNone_none, List.mem_cons]
      grind
  | some n =>
      have hasked : (d :: before).filterMap (·.id) = n :: before.filterMap (·.id) :=
        List.filterMap_cons_some hd
      rw [hasked, if_neg nofun, List.exists_mem_cons_iff, enter_id h hd]
      grind

theorem clash_cons {s s' : EntityStore} {d : EntityDecl} {id : EntityId}
    (h : s.enter d = .ok (id, s')) (ds : List EntityDecl) :
    s.Clash (d :: ds) ↔ s'.Clash ds := by
  constructor
  · rintro ⟨before, f, after, n, heq, hf, hx⟩
    cases before with
    | nil =>
        obtain ⟨rfl, rfl⟩ := List.cons.inj heq
        have hlive : EntityId.ofNat n ∈ s.live := by simpa [allocated] using hx
        obtain ⟨e, he⟩ := enter_error_iff.mpr ⟨n, hf, hlive⟩
        simp [h] at he
    | cons g before =>
        obtain ⟨rfl, rfl⟩ := List.cons.inj heq
        exact ⟨before, f, after, n, rfl, hf, (taken_cons h before _).mp hx⟩
  · rintro ⟨before, f, after, n, rfl, hf, hx⟩
    exact ⟨d :: before, f, after, n, rfl, hf, (taken_cons h before _).mpr hx⟩

end EntityStore

namespace World

/-- The property holds of doing nothing, and of two writes in sequence if it holds of both. -/
structure Sequential (P : (World → Except Error World) → Prop) : Prop where
  done : P .ok
  bind {f g : World → Except Error World} (hf : P f) (hg : P g) : P fun w => f w >>= g

def furnish (d : EntityDecl) (id : EntityId) (w : World) : Except Error World := do
  let w ← match d.name with
    | some name => w.setName id name
    | none => pure w
  let w ← d.components.foldlM (fun w (component, init) => w.addComponent id component init) w
  d.boundFunctions.foldlM (fun w (name, f) => w.setBoundFunction id name f) w

namespace Sequential

variable {P : (World → Except Error World) → Prop} (hP : Sequential P)
include hP

theorem foldlM {α : Type} {f : World → α → Except Error World} (hf : ∀ a, P (f · a))
    (as : List α) : P (as.foldlM f) := by
  induction as with
  | nil => exact hP.done
  | cons a as ih =>
      have hcons : (a :: as).foldlM f = fun w => f w a >>= as.foldlM f :=
        funext fun _ => List.foldlM_cons
      rw [hcons]
      exact hP.bind (hf a) ih

theorem furnish {d : EntityDecl} {id : EntityId} (hname : ∀ name ∈ d.name, P (·.setName id name))
    (hcomponent : ∀ component init, P (·.addComponent id component init))
    (hfunction : ∀ name f, P (·.setBoundFunction id name f)) : P (furnish d id) := by
  have hcomponents : P (d.components.foldlM fun w p => w.addComponent id p.1 p.2) :=
    hP.foldlM (fun p => hcomponent p.1 p.2) d.components
  have hfunctions : P (d.boundFunctions.foldlM fun w p => w.setBoundFunction id p.1 p.2) :=
    hP.foldlM (fun p => hfunction p.1 p.2) d.boundFunctions
  unfold World.furnish
  cases hd : d.name with
  | none => exact hP.bind hP.done (hP.bind hcomponents hfunctions)
  | some name => exact hP.bind (hname name hd) (hP.bind hcomponents hfunctions)

end Sequential

def Writes (id : EntityId) (f : World → Except Error World) : Prop :=
  ∀ w, id ∈ w.entities.live → ∃ w', f w = .ok w' ∧ w'.entities = w.entities

theorem guarded_writes (id : EntityId) (f : World → World)
    (hf : ∀ w, (f w).entities = w.entities) :
    Writes id (fun w => do w.validate id; return f w) := by
  intro w h
  refine ⟨f w, ?_, hf w⟩
  simp only [validate, EntityStore.validate_of_mem h]
  rfl

theorem setName_writes (id : EntityId) (name : String) : Writes id (·.setName id name) :=
  guarded_writes id (fun w => touch { w with names := w.names.insert name id }) fun _ => rfl

theorem addComponent_writes (id : EntityId) (component : String) (init : List (String × Value)) :
    Writes id (·.addComponent id component init) :=
  guarded_writes id (fun w => touch { w with components := w.components.attach id component init })
    fun _ => rfl

theorem setBoundFunction_writes (id : EntityId) (name : String) (f : BoundFunction) :
    Writes id (·.setBoundFunction id name f) :=
  guarded_writes id (fun w => touch { w with
    bound := w.bound.insert id (Table.put (w.functionsOf id) name f) }) fun _ => rfl

theorem Writes.bind {id : EntityId} {f g : World → Except Error World} (hf : Writes id f)
    (hg : Writes id g) : Writes id (fun w => f w >>= g) := by
  intro w h
  obtain ⟨w₁, h₁, he₁⟩ := hf w h
  obtain ⟨w₂, h₂, he₂⟩ := hg w₁ (he₁ ▸ h)
  exact ⟨w₂, (congrArg (· >>= g) h₁).trans h₂, he₂.trans he₁⟩

theorem writes_sequential (id : EntityId) : Sequential (Writes id) where
  done w _ := ⟨w, rfl, rfl⟩
  bind := Writes.bind

theorem furnish_writes (d : EntityDecl) (id : EntityId) : Writes id (furnish d id) :=
  (writes_sequential id).furnish (fun name _ => setName_writes id name) (addComponent_writes id)
    (setBoundFunction_writes id)

theorem withEntity_eq (w : World) (d : EntityDecl) : w.withEntity d = match d.id with
    | some n => do
      let w ← w.createWithId (.ofNat n)
      return (.ofNat n, ← furnish d (.ofNat n) w)
    | none => do return (w.create.1, ← furnish d w.create.1 w.create.2) := by
  unfold withEntity furnish
  cases d.id with
  | none => cases d.name <;> simp only [pure_bind, bind_assoc]
  | some n => cases d.name <;> simp only [pure_bind, bind_assoc]

/-- Creation changes the entities as making the entity live does, and fails when that fails. -/
theorem withEntity_entities (w : World) (d : EntityDecl) :
    (w.withEntity d).map (fun p => (p.1, p.2.entities)) = w.entities.enter d := by
  rw [withEntity_eq]
  unfold EntityStore.enter
  cases d.id with
  | none =>
      obtain ⟨w', hw, he⟩ := furnish_writes d w.create.1 w.create.2
        ((w.entities.spawn_live _).mpr (.inl rfl))
      simp only [hw]
      exact congrArg (fun s => Except.ok (w.create.1, s)) he
  | some n =>
      unfold createWithId
      dsimp only
      by_cases hn : EntityId.ofNat n ∈ w.entities.live
      · rw [EntityStore.insert_of_mem hn]
        rfl
      · rw [EntityStore.insert_of_not_mem hn]
        obtain ⟨w', hw, he⟩ := furnish_writes d (.ofNat n)
          (touch { w with entities := w.entities.occupied (.ofNat n) })
          ((OrderedSet.mem_insert ..).mpr (.inl rfl))
        change Except.map _ (furnish d (.ofNat n) _ >>= _) = _
        rw [hw]
        exact congrArg (fun s => Except.ok (EntityId.ofNat n, s)) he

theorem spawnAll_cons (w : World) (d : EntityDecl) (ds : List EntityDecl) :
    spawnAll (d :: ds) w = match w.withEntity d with
      | .error e => .error e w
      | .ok (id, w) =>
        match spawnAll ds w with
        | .ok ids w => .ok (id :: ids) w
        | .error e w => .error e w := by
  change (EStateM.bind (spawn d) _) w = _
  unfold EStateM.bind spawn
  cases w.withEntity d with
  | error e => rfl
  | ok p =>
      obtain ⟨id, w⟩ := p
      change (EStateM.bind (spawnAll ds) _) w = _
      unfold EStateM.bind
      dsimp only
      cases spawnAll ds w <;> rfl

theorem spawnAll_cons_inv {w w'' : World} {d : EntityDecl} {ds : List EntityDecl}
    {ids : List EntityId} (h : spawnAll (d :: ds) w = .ok ids w'') :
    ∃ id rest w', ids = id :: rest ∧ w.withEntity d = .ok (id, w') ∧
      spawnAll ds w' = .ok rest w'' := by
  rw [spawnAll_cons] at h
  cases hd : w.withEntity d with
  | error e =>
      rw [hd] at h
      cases h
  | ok p =>
      rw [hd] at h
      dsimp only at h
      cases hs : spawnAll ds p.2 with
      | error e u =>
          rw [hs] at h
          cases h
      | ok rest u =>
          rw [hs] at h
          cases h
          exact ⟨p.1, rest, p.2, rfl, rfl, hs⟩

theorem withEntity_cases (w : World) (d : EntityDecl) :
    (∃ e, w.withEntity d = .error e ∧ w.entities.enter d = .error e) ∨
      ∃ id w', w.withEntity d = .ok (id, w') ∧ w.entities.enter d = .ok (id, w'.entities) := by
  have h := w.withEntity_entities d
  cases hw : w.withEntity d with
  | error e =>
      rw [hw] at h
      exact .inl ⟨e, rfl, h.symm⟩
  | ok p =>
      rw [hw] at h
      exact .inr ⟨p.1, p.2, rfl, h.symm⟩

/-- Creation fails just if identifiers clash. -/
theorem spawnAll_fails_iff (w : World) (ds : List EntityDecl) :
    (∃ e w', spawnAll ds w = .error e w') ↔ w.entities.Clash ds := by
  induction ds generalizing w with
  | nil =>
      refine iff_of_false ?_ ?_
      · rintro ⟨e, w', h⟩
        cases h
      · rintro ⟨before, d, after, n, heq, -⟩
        simp at heq
  | cons d ds ih =>
      rw [spawnAll_cons]
      rcases w.withEntity_cases d with ⟨e, hw, he⟩ | ⟨id, w', hw, he⟩
      · rw [hw]
        obtain ⟨n, hd, hn⟩ := EntityStore.enter_error_iff.mp ⟨e, he⟩
        exact iff_of_true ⟨e, w, rfl⟩ ⟨[], d, ds, n, rfl, hd, .inl hn⟩
      · rw [hw, EntityStore.clash_cons he, ← ih w']
        dsimp only
        cases spawnAll ds w' with
        | ok ids w'' => simp
        | error e w'' => simp

/-- A failed creation ends where an identifier that is asked for is live. -/
theorem spawnAll_failed {w w' : World} {ds : List EntityDecl} {e : Error}
    (h : spawnAll ds w = .error e w') :
    ∃ d ∈ ds, ∃ n, d.id = some n ∧ EntityId.ofNat n ∈ w'.entities.live := by
  induction ds generalizing w with
  | nil => cases h
  | cons d ds ih =>
      rw [spawnAll_cons] at h
      rcases w.withEntity_cases d with ⟨e', hw, he⟩ | ⟨id, w₁, hw, he⟩
      · rw [hw] at h
        obtain ⟨n, hd, hn⟩ := EntityStore.enter_error_iff.mp ⟨e', he⟩
        cases h
        exact ⟨d, by simp, n, hd, hn⟩
      · rw [hw] at h
        dsimp only at h
        cases hs : spawnAll ds w₁ with
        | ok ids w₂ => simp [hs] at h
        | error e₂ w₂ =>
            simp only [hs, EStateM.Result.error.injEq] at h
            obtain ⟨rfl, rfl⟩ := h
            obtain ⟨f, hf, n, hn⟩ := ih hs
            exact ⟨f, List.mem_cons_of_mem _ hf, n, hn⟩

end World

end RuleSim
