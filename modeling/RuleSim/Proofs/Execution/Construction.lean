import RuleSim.Proofs.Execution.Purity
import RuleSim.Proofs.World.Sound

namespace RuleSim

namespace World

theorem clone_of_live {w : World} {source : EntityId} (h : source ∈ w.entities.live) :
    ∃ w', w.clone source none = .ok (w.entities.spawn.1, w') ∧
      w'.entities = w.entities.spawn.2 := by
  rw [clone, validate_eq, if_pos h]
  exact ⟨_, rfl, rfl⟩

theorem clone_live {w w' : World} {source copy : EntityId}
    (h : w.clone source none = .ok (copy, w')) : w.entities.live ⊆ w'.entities.live := by
  obtain ⟨v, hv, hentities⟩ := clone_of_live (guarded_ok h).1
  cases hv.symm.trans h
  intro id hid
  rw [hentities]
  exact (w.entities.spawn_live id).mpr (.inr hid)

theorem setField_entities {w w' : World} {id : EntityId} {component field : String} {v : Value}
    (h : w.setField id component field v = .ok w') : w'.entities = w.entities := by
  obtain ⟨-, h⟩ := guarded_ok h
  cases hs : w.components.setField? id component field v with
  | none =>
      rw [hs] at h
      cases h
      rfl
  | some components =>
      rw [hs] at h
      cases h
      rfl

end World

namespace Execution

variable {c : Scope} {w : World} {s t : State}

/-- Evaluation of the expression comes to no copy of an entity. -/
def CopyFree (c : Scope) (w : World) (e : Expr) : Prop := ∀ x, Reaches c w e x → ¬ x.Copies

theorem Reaches.trans {e x y : Expr} (h : Reaches c w e x) (h' : Reaches c w x y) :
    Reaches c w e y := by
  induction h' with
  | refl => exact h
  | part _ hy ih => exact ih.part hy
  | call _ hn hf ih => exact ih.call hn hf
  | boundCall _ hf ih => exact ih.boundCall hf

theorem CopyFree.reached {e x : Expr} (h : CopyFree c w e) (hx : Reaches c w e x) :
    CopyFree c w x := fun y hy => h y (hx.trans hy)

theorem calm_copyFree : Calm c w True (CopyFree c w) where
  parts he hx := he.reached (Reaches.refl.part hx)
  call hc hn hf := hc.reached (Reaches.refl.call hn hf)
  boundCall hc hf := hc.reached (Reaches.refl.boundCall hf)
  copies he := he _ .refl
  draws _ _ := trivial

theorem compositional_copyFree (depth : Nat) :
    Compositional c (CopyFree c w) fun p => Still w True (p (invokeAt c depth)) :=
  calm_copyFree.compositional (calm_copyFree.still_invokeAt depth)

theorem still_evaluateInits {inits : List ComponentInit}
    (h : ∀ init ∈ inits, ∀ p ∈ init.fields, CopyFree c w p.2) :
    Still w True (evaluateInits c inits) := by
  induction inits with
  | nil => exact still_of_final fun _ => rfl
  | cons init rest ih =>
      rw [List.forall_mem_cons] at h
      have hfields : Still w True (evaluateFields c init.fields) :=
        (compositional_copyFree c.limits.callDepth).evalFields init.fields h.1
      apply hfields.bind
      intro fields _ _ _ _
      apply (ih h.2).bind
      intro rest _ _ _ _
      exact still_of_final fun _ => rfl

theorem addComponents_ok {id : EntityId} (inits : List (String × Fields Value))
    (hid : id ∈ s.world.entities.live) : ∃ t, addComponents id inits s = .ok () t := by
  induction inits generalizing s with
  | nil => exact ⟨s, rfl⟩
  | cons p rest ih =>
      obtain ⟨w', hw, hentities⟩ := World.addComponent_writes id p.1 p.2 s.world hid
      have hadd : changeWorld (·.addComponent id p.1 p.2) s = .ok () { s with world := w' } :=
        onWorld_of_ok (f := fun w => (w.addComponent id p.1 p.2).map ((), ·))
          (congrArg (Except.map ((), ·)) hw)
      rw [addComponents, bind_of_ok hadd]
      exact ih (s := { s with world := w' }) (hentities ▸ hid)

/-- Once all fields are evaluated nothing can fail. -/
theorem spawnEntity_error_iff {components : List ComponentInit} {e : Error} :
    spawnEntity c components s = .error e t ↔ evaluateInits c components s = .error e t := by
  rw [spawnEntity]
  cases hi : evaluateInits c components s with
  | error e' u => simp only [bind_of_error hi, EStateM.Result.error.injEq]
  | ok inits u =>
      have hcreate : onWorld (fun w => .ok w.create) u =
          .ok u.world.create.1 { u with world := u.world.create.2 } := onWorld_of_ok rfl
      have hlive : u.world.create.1 ∈ u.world.create.2.entities.live :=
        (u.world.entities.spawn_live _).mpr (.inl rfl)
      obtain ⟨v, hv⟩ := addComponents_ok (s := { u with world := u.world.create.2 }) inits hlive
      rw [bind_of_ok hi, bind_of_ok hcreate, bind_of_ok hv]
      exact iff_of_false nofun nofun

theorem mem_live_of_liveEntity? {v : Value} {id : EntityId} (h : liveEntity? w v = some id) :
    id ∈ w.entities.live := by
  rw [liveEntity?, Option.filter_eq_some_iff] at h
  exact of_decide_eq_true h.2

theorem mem_live_of_resolve {invoke : Invoke} {r : EntityRef} {id : EntityId}
    (h : resolve c invoke r s = .ok (some id) t) : id ∈ t.world.entities.live := by
  cases r with
  | named name =>
      rw [resolve] at h
      obtain ⟨hid, rfl⟩ := EStateM.Result.ok.inj h
      exact mem_live_of_liveEntity? hid
  | computed e =>
      rw [resolve] at h
      obtain ⟨v, u, -, h⟩ := bind_ok h
      obtain ⟨hid, rfl⟩ := EStateM.Result.ok.inj h
      exact mem_live_of_liveEntity? hid

def Outlives (s t : State) : Prop := s.world.entities.live ⊆ t.world.entities.live

def KeepsLive {α : Type} (x : Exec α) : Prop := ∀ s, Outlives s (final x s)

theorem outlives_moving : Moving Outlives where
  refl _ := List.Subset.refl _
  trans h h' := List.Subset.trans h h'
  noted _ _ _ := List.Subset.refl _
  drawn _ _ := List.Subset.refl _
  written h := by
    rw [Outlives, World.setField_entities h]
    exact List.Subset.refl _
  cloned h := World.clone_live h

theorem keepsLive_invocable : Invocable fun x => KeepsLive x where
  toEvaluable := outlives_moving.evaluable
  inFrame name frame _ hb s := by
    rw [final_inFrame]
    exact hb { s with frames := frame :: s.frames }

theorem keepsLive_override (c : Scope) (depth : Nat) (copy : EntityId)
    (overrides : List (String × List (String × Expr))) :
    KeepsLive (override c (invokeAt c depth) copy overrides) :=
  @Compositional.override c (fun _ => True) _
    (keepsLive_invocable.compositional c (invokeAt_closed keepsLive_invocable c depth))
    (.named "entity") overrides trivial copy overrides fun _ _ _ _ => trivial

/-- A copy fails with the reference to its source, or it fails when it is live. -/
theorem clone_error {depth : Nat} {source : EntityRef}
    {overrides : List (String × List (String × Expr))} {e : Error}
    (h : eval c (invokeAt c depth) (.clone source overrides) s = .error e t) :
    resolve c (invokeAt c depth) source s = .error e t ∨
      ∃ id u, resolve c (invokeAt c depth) source s = .ok (some id) u ∧
        u.world.entities.spawn.1 ∈ t.world.entities.live := by
  rw [eval] at h
  cases hr : resolve c (invokeAt c depth) source s with
  | error e' u =>
      rw [bind_of_error hr] at h
      cases h
      exact .inl rfl
  | ok id u =>
      rw [bind_of_ok hr] at h
      cases id with
      | none => cases h
      | some id =>
          refine .inr ⟨id, u, rfl, ?_⟩
          obtain ⟨w', hw, hentities⟩ := World.clone_of_live (mem_live_of_resolve hr)
          have hclone : onWorld (·.clone id none) u =
              .ok u.world.entities.spawn.1 { u with world := w' } :=
            onWorld_of_ok (f := (·.clone id none)) hw
          dsimp only at h
          rw [bind_of_ok hclone] at h
          have hkeeps : KeepsLive (do
              record (.entitySpawned u.world.entities.spawn.1)
              override c (invokeAt c depth) u.world.entities.spawn.1 overrides
              return .entity u.world.entities.spawn.1 : Exec Value) :=
            keepsLive_invocable.bind (keepsLive_invocable.record _ trivial)
              fun _ => keepsLive_invocable.bind (keepsLive_override c depth _ overrides)
                fun _ => keepsLive_invocable.pure _
          rw [← final_of_error h]
          apply hkeeps { u with world := w' }
          rw [hentities]
          exact (u.world.entities.spawn_live _).mpr (.inl rfl)

def SameLive (s t : State) : Prop := ∀ id, t.world.hasEntity id = s.world.hasEntity id

theorem resolve_still {depth : Nat} {source : EntityRef}
    (h : ∀ x ∈ source.parts, CopyFree c s.world x) :
    (final (resolve c (invokeAt c depth) source) s).world = s.world :=
  ((compositional_copyFree depth).resolve source h s rfl).world

/-- A copy that fails after its source was found leaves one more entity. -/
theorem not_sameLive_of_clone {depth : Nat} {source : EntityRef} {id : EntityId} {u : State}
    (h : ∀ x ∈ source.parts, CopyFree c s.world x)
    (hroom : s.world.entityIds.length < 2 ^ 64)
    (hr : resolve c (invokeAt c depth) source s = .ok (some id) u)
    (hcopy : u.world.entities.spawn.1 ∈ t.world.entities.live) : ¬ SameLive s t := by
  have hworld : u.world = s.world := final_of_ok hr ▸ resolve_still h
  rw [hworld] at hcopy
  have hfresh : s.world.entities.spawn.1 ∉ s.world.entities.live := EntityStore.spawn_fresh hroom
  intro hsame
  have hnew := hsame s.world.entities.spawn.1
  simp only [World.hasEntity, EntityStore.exists?, hcopy, hfresh, decide_true, decide_false] at hnew
  cases hnew

/-- What fails under construction leaves the world as it was, in two cases of three: a spawned
entity of which a field fails, and a copy whose source fails. A copy of which a field fails stays
live. -/
theorem construction_atomic_iff (c : Scope) (s : State) :
    (∀ (components : List ComponentInit) (e : Error) (t : State),
      (∀ init ∈ components, ∀ p ∈ init.fields, CopyFree c s.world p.2) →
        runAction c (.spawn components) s = .error e t → t.world = s.world) ∧
    ∀ (depth : Nat) (source : EntityRef) (overrides : List (String × List (String × Expr)))
      (e : Error) (t : State), (∀ x ∈ source.parts, CopyFree c s.world x) →
        s.world.entityIds.length < 2 ^ 64 →
          eval c (invokeAt c depth) (.clone source overrides) s = .error e t →
            (t.world = s.world ↔ resolve c (invokeAt c depth) source s = .error e t) ∧
              (SameLive s t ↔ resolve c (invokeAt c depth) source s = .error e t) := by
  constructor
  · intro components e t hfree h
    rw [runAction, spawnEntity_error_iff] at h
    rw [← final_of_error h]
    exact (still_evaluateInits hfree s rfl).world
  · intro depth source overrides e t hfree hroom h
    rcases clone_error h with hr | ⟨id, u, hr, hcopy⟩
    · have hworld : t.world = s.world := final_of_error hr ▸ resolve_still hfree
      refine ⟨iff_of_true hworld hr, iff_of_true (fun id => ?_) hr⟩
      rw [hworld]
    · have hlive := not_sameLive_of_clone hfree hroom hr hcopy
      have hnot : ¬ resolve c (invokeAt c depth) source s = .error e t := by
        rw [hr]
        exact nofun
      refine ⟨iff_of_false (fun hworld => hlive fun id => ?_) hnot, iff_of_false hlive hnot⟩
      rw [hworld]

def broken : Expr := .binary .divide (.literal (.int 1)) (.literal (.int 0))

def smith : Scope := { rules := {}, limits := {}, event := ⟨0, "tick", Binary64.zero, {}, 0, none⟩ }

def workshop : State :=
  { world := World.empty.create.2, locals := [("entity", .entity (.ofNat 0))] }

def sword : List ComponentInit :=
  [⟨"Blade", [("edge", .literal (.int 1))]⟩, ⟨"Hilt", [("weight", broken)]⟩]

theorem copyFree_broken (c : Scope) (w : World) : CopyFree c w broken := by
  have hreach {x : Expr} (h : Reaches c w broken x) :
      x ∈ [broken, .literal (.int 1), .literal (.int 0)] := by
    induction h with
    | refl => simp
    | part _ hy ih =>
        simp only [List.mem_cons, List.not_mem_nil, or_false] at ih
        rcases ih with rfl | rfl | rfl <;> simp_all [broken, Expr.parts]
    | call _ _ _ ih => simp [broken] at ih
    | boundCall _ _ ih => simp [broken] at ih
  intro x hx hcopies
  have hx := hreach hx
  simp only [List.mem_cons, List.not_mem_nil, or_false] at hx
  rcases hx with rfl | rfl | rfl <;> exact hcopies

theorem unfinished_sword :
    (∃ e t, runAction smith (.spawn sword) workshop = .error e t ∧ t.world = workshop.world) ∧
      ∃ e t, eval smith (invokeAt smith 0) (.clone (.computed broken) []) workshop = .error e t ∧
        t.world = workshop.world := by
  obtain ⟨hspawn, hclone⟩ := construction_atomic_iff smith workshop
  have hfree : CopyFree smith workshop.world broken := copyFree_broken _ _
  have hedge : CopyFree smith workshop.world (.literal (.int 1)) :=
    hfree.reached (Reaches.refl.part (by simp [broken, Expr.parts]))
  have hfields : ∀ init ∈ sword, ∀ p ∈ init.fields, CopyFree smith workshop.world p.2 := by
    simp only [sword, List.forall_mem_cons]
    exact ⟨⟨hedge, nofun⟩, ⟨hfree, nofun⟩, nofun⟩
  have hsource : ∀ x ∈ (EntityRef.computed broken).parts, CopyFree smith workshop.world x :=
    List.forall_mem_singleton.mpr hfree
  refine ⟨⟨⟨.divisionByZero, none⟩, workshop, rfl, hspawn sword _ _ hfields rfl⟩,
    ⟨⟨.divisionByZero, none⟩, workshop, rfl, ?_⟩⟩
  exact ((hclone 0 (.computed broken) [] _ _ hsource (by decide) rfl).1).mpr rfl

/-- A copy of the entity to which a field is to be given that cannot be computed. -/
theorem unfinished_copy_lives : CopyFree smith workshop.world broken ∧ ∃ e t,
    evaluate smith (.clone (.named "entity") [("Hilt", [("weight", broken)])]) workshop =
      .error e t ∧ ¬ SameLive workshop t := by
  refine ⟨copyFree_broken _ _, ⟨.divisionByZero, none⟩, _, rfl, fun h => ?_⟩
  have hcopy := h (.ofNat 1)
  revert hcopy
  decide

end Execution

end RuleSim
