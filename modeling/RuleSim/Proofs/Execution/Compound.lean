import RuleSim.Proofs.Execution.Construction
import RuleSim.Proofs.Value.Arithmetic
import RuleSim.Proofs.World.Cloning

namespace RuleSim

theorem ModifyOp.binary_eq {op : ModifyOp} {bop : BinaryOp} (h : op.operator? = some bop)
    (a b : Value) : Value.binary bop a b = Value.arithmetic bop a b := by
  cases op with
  | set => cases h
  | _ =>
      cases h
      rfl

theorem FieldType.coerce_null (t : FieldType) : t.coerce .null = .null := by
  cases t <;> rfl

theorem ComponentStore.coerce_null (s : ComponentStore) (component field : String) :
    s.coerce component field .null = .null := by
  unfold coerce ComponentSchema.coerce
  split
  · split
    · exact FieldType.coerce_null _
    · rfl
  · rfl

namespace World

variable {w w' w'' : World} {id copy source : EntityId} {component field : String} {v : Value}
  {P : EntityId → Prop}

/-- As long as there is room for new entities, those with the property that were live before are as
they were. The number of live entities, by which room is measured, does not fall. -/
structure Spares (P : EntityId → Prop) (w w' : World) : Prop where
  grows : w.entities.live.length ≤ w'.entities.live.length
  unchanged : w'.entities.live.length < 2 ^ 64 → ∀ id ∈ w.entities.live, P id → Unchanged id w w'

theorem Spares.refl (P : EntityId → Prop) (w : World) : Spares P w w :=
  ⟨le_rfl, fun _ id _ _ => .refl id w⟩

theorem Spares.trans (h : Spares P w w') (h' : Spares P w' w'') : Spares P w w'' where
  grows := h.grows.trans h'.grows
  unchanged hroom id hid hP := by
    have hfirst := h.unchanged (h'.grows.trans_lt hroom) id hid hP
    exact hfirst.trans (h'.unchanged hroom id (hfirst.mem_live hid) hP)

theorem Spares.mono {Q : EntityId → Prop} (h : Spares P w w') (hQ : ∀ id, Q id → P id) :
    Spares Q w w' := ⟨h.grows, fun hroom id hid hq => h.unchanged hroom id hid (hQ id hq)⟩

theorem setField_spares (h : w.setField id component field v = .ok w') :
    Spares (· ≠ id) w w' where
  grows := by rw [setField_entities h]
  unchanged _ x _ hne := by
    have hperform : w.perform (.setField id component field v) = w' := perform_of_ok h
    have hapart : Apart id (fun _ => False) w w' := hperform ▸ w.setField_apart id component field v
    exact hapart.unchanged hne

theorem setField_null (hid : id ∈ w.entities.live)
    (h : w.field? id component field = some .null) : w.setField id component field .null = .ok w := by
  have hsame : w.components.setField? id component field .null = none := by
    rw [ComponentStore.setField?, ComponentStore.coerce_null]
    exact if_pos h
  rw [setField, validate_eq, if_pos hid, hsame]
  rfl

theorem clone_spares (h : w.clone source none = .ok (copy, w')) :
    Spares (· ≠ copy) w w' ∧ (w.entities.live.length < 2 ^ 64 → copy ∉ w.entities.live) := by
  obtain ⟨-, v, hv, rfl⟩ := clone_ok h
  refine ⟨⟨?_, fun _ x _ hne => ?_⟩, fun hroom => hv.not_live fun _ => hroom⟩
  · cases hv with
    | fresh => exact OrderedSet.length_le_insert ..
  · have hapart : Apart copy (fun _ => False) w (v.copied source copy) :=
      hv.enters.apart.trans (v.apart_copied source copy)
    exact hapart.unchanged hne

end World

namespace Execution

variable {c : Scope} {P : EntityId → Prop}

/-- The execution spares the entities with the property. -/
def Sparing (P : EntityId → Prop) {α : Type} (x : Exec α) : Prop :=
  ∀ s, World.Spares P s.world (final x s).world

theorem sparing_of_world {α : Type} {x : Exec α} (h : ∀ s, (final x s).world = s.world) :
    Sparing P x := fun s => (h s).symm ▸ .refl P s.world

theorem Sparing.bind {α β : Type} {x : Exec α} {f : α → Exec β} (hx : Sparing P x)
    (hf : ∀ a, Sparing P (f a)) : Sparing P (x >>= f) :=
  final_bind_trans (R := fun s t : State => s.world.Spares P t.world) .trans hx hf

theorem sparing_setField (id : EntityId) (component field : String) (v : Value) :
    Sparing (· ≠ id) (changeWorld (·.setField id component field v)) :=
  changeWorld_relates (R := fun s t => s.world.Spares (· ≠ id) t.world) (fun _ => .refl _ _)
    fun _ _ => World.setField_spares

/-- The copy is a fresh entity, so that what is done to it is done to none that was there. -/
theorem sparing_clone (source : EntityId) {f : EntityId → Exec Value}
    (hf : ∀ copy, Sparing (· ≠ copy) (f copy)) :
    Sparing (fun _ => True) (onWorld (·.clone source none) >>= f) := by
  intro s
  rw [final_bind]
  cases h : s.world.clone source none with
  | error e =>
      rw [onWorld_of_error (f := (·.clone source none)) h]
      exact .refl _ _
  | ok p =>
      obtain ⟨copy, w⟩ := p
      rw [onWorld_of_ok (f := (·.clone source none)) h]
      obtain ⟨hclone, hfresh⟩ := World.clone_spares h
      have hspares := hclone.trans (hf copy { s with world := w })
      refine ⟨hspares.grows, fun hroom id hid _ => hspares.unchanged hroom id hid ?_⟩
      rintro rfl
      exact hfresh (hspares.grows.trans_lt hroom) hid

theorem sparing_constructive (c : Scope) {invoke : Invoke}
    (hi : invoke.Satisfies fun x => Sparing (fun _ => True) x) :
    Constructive c (fun _ => True) (fun p => Sparing (fun _ => True) (p invoke))
      (fun copy _ p => Sparing (· ≠ copy) (p invoke)) where
  parts _ _ := trivial
  pure _ := sparing_of_world fun _ => rfl
  fail _ := sparing_of_world fun _ => rfl
  bind := Sparing.bind
  read _ := sparing_of_world fun _ => rfl
  builtin _ _ _ _ := sparing_of_world <|
    draw_relates (R := fun s t => t.world = s.world) (fun _ => rfl) fun _ _ _ _ => rfl
  call _ _ _ _ _ := hi _ _ _ _
  boundCall _ id _ hp := .bind (sparing_of_world fun s => by rw [final_resolveBound])
    fun _ => hp.bind fun _ => hi _ _ _ _
  evaluated copy _ _ hp s := (hp s).mono fun _ _ => trivial
  next := Sparing.bind
  spawned _ _ := sparing_of_world fun _ => rfl
  setField _ copy component field v := sparing_setField copy component field v
  clone _ source _ hf := sparing_clone source hf

theorem sparing_enter (name : String) (params : List Param) (args : List Value) {body : Exec Value}
    (hb : Sparing P body) : Sparing P (enter c name params args body) :=
  enter_relates (R := fun s t => s.world.Spares P t.world) (fun s => .refl P s.world)
    (fun _ _ _ h => h) hb c name params args

theorem sparing_invokeAt (c : Scope) (depth : Nat) :
    (invokeAt c depth).Satisfies fun x => Sparing (fun _ => True) x := by
  intro name params body args
  induction depth generalizing name params body args with
  | zero => exact sparing_enter name params args (sparing_of_world fun _ => rfl)
  | succ depth ih =>
      exact sparing_enter name params args ((sparing_constructive c ih).eval body trivial)

/-- Evaluation leaves alone what is live, as long as there is room for copies. -/
theorem evaluate_sparing (c : Scope) (e : Expr) : Sparing (fun _ => True) (evaluate c e) :=
  (sparing_constructive c (sparing_invokeAt c _)).eval e trivial

section Modify

variable {name component field : String} {op : ModifyOp} {bop : BinaryOp} {value : Expr}
  {s t : State} {id : EntityId} {cur b : Value}

theorem evaluateRef_named (hid : liveEntity? s.world (c.lookUp s name) = some id) :
    evaluateRef c (.named name) s = .ok (some id) s := by
  rw [evaluateRef, resolve, get_bind, hid]
  rfl

theorem evaluate_field (hid : liveEntity? s.world (c.lookUp s name) = some id)
    (hcur : s.world.field? id component field = some cur) :
    evaluate c (.field (.named name) component field) s = .ok cur s := by
  have hread : readField s.world id component field = cur := by rw [readField, hcur]
  rw [evaluate, eval]
  refine (bind_of_ok (evaluateRef_named hid) _).trans ?_
  rw [← hread]
  rfl

theorem evaluate_binary (hop : op.operator? = some bop) (l r : Expr) :
    evaluate c (.binary bop l r) =
      evaluate c l >>= fun a => evaluate c r >>= fun b => lift (Value.arithmetic bop a b) := by
  cases op with
  | set => cases hop
  | _ =>
      cases hop
      simp only [evaluate, eval, Value.binary]

def store (op : ModifyOp) (id : EntityId) (component field : String) (operand : Value) :
    Exec Unit := do
  if operand.isNull then return
  let v ← match op.operator? with
    | none => pure operand
    | some op => lift (Value.binary op (currentValue (← get).world id component field) operand)
  changeWorld (·.setField id component field v)

theorem modifyField_live (hid : liveEntity? s.world (c.lookUp s name) = some id) :
    modifyField c (.named name) component field op value s =
      (evaluate c value >>= store op id component field) s := by
  rw [modifyField, bind_of_ok (evaluateRef_named hid)]
  rfl

theorem store_set (hb : b ≠ .null) :
    store .set id component field b t = changeWorld (·.setField id component field b) t := by
  cases b with
  | null => exact absurd rfl hb
  | _ => rfl

theorem store_operator (hop : op.operator? = some bop) (hb : b ≠ .null)
    (hcur : t.world.field? id component field = some cur) : store op id component field b t =
      (lift (Value.arithmetic bop cur b) >>= fun v =>
        changeWorld (·.setField id component field v)) t := by
  have hcurrent : currentValue t.world id component field = cur := by rw [currentValue, hcur]
  have hnull : ¬ b.isNull = true := by
    cases b with
    | null => exact absurd rfl hb
    | _ => exact nofun
  rw [store, if_neg hnull, hop, ← hcurrent, ← op.binary_eq hop]
  rfl

/-- To store what the operator made of the value in the field and the operand is to combine the
operand with that value. -/
theorem store_combined (hop : op.operator? = some bop) (hid : id ∈ t.world.entities.live)
    (hcur : t.world.field? id component field = some cur) :
    (lift (Value.arithmetic bop cur b) >>= store .set id component field) t =
      store op id component field b t := by
  by_cases hb : b = .null
  · have hnull : Value.arithmetic bop cur b = .ok .null := Value.arithmetic_eq_null_iff.mpr (.inr hb)
    rw [hnull, hb]
    rfl
  rw [store_operator hop hb hcur]
  cases hv : Value.arithmetic bop cur b with
  | error kind => rfl
  | ok v =>
      change store .set id component field v t = changeWorld (·.setField id component field v) t
      by_cases hnull : v = .null
      · subst hnull
        obtain rfl := (Value.arithmetic_eq_null_iff.mp hv).resolve_right hb
        have hwrite := World.setField_null hid hcur
        exact (onWorld_of_ok (f := fun w => (w.setField id component field .null).map ((), ·))
          (congrArg (Except.map ((), ·)) hwrite)).symm
      · exact store_set hnull

/-- To combine a value with the one in a field of a live entity has the same result and leads to
the same state as to store what the operator makes of the field and the value, whatever the value
does on the way, as long as there is room for the copies that it makes. -/
theorem compound_modify (hop : op.operator? = some bop)
    (hid : liveEntity? s.world (c.lookUp s name) = some id)
    (hcur : s.world.field? id component field = some cur)
    (hroom : (final (evaluate c value) s).world.entityIds.length < 2 ^ 64) :
    runAction c (.modify (.named name) component field op value) s =
      runAction c (.modify (.named name) component field .set
        (.binary bop (.field (.named name) component field) value)) s := by
  rw [runAction, runAction, modifyField_live hid, modifyField_live hid, evaluate_binary hop,
    bind_assoc, bind_of_ok (evaluate_field hid hcur), bind_assoc]
  cases he : evaluate c value s with
  | error e t => rw [bind_of_error he, bind_of_error he]
  | ok b t =>
      have hspares := evaluate_sparing c value s
      rw [final_of_ok he] at hspares hroom
      have hkept := hspares.unchanged hroom id (mem_live_of_liveEntity? hid) trivial
      rw [bind_of_ok he, bind_of_ok he]
      refine (store_combined hop (hkept.mem_live (mem_live_of_liveEntity? hid)) ?_).symm
      rw [hkept.field?, hcur]

end Modify

def lantern : State where
  world := World.empty.after [.create, .addComponent (.ofNat 0) "Lamp" [("oil", .int 3)]]
  locals := [("entity", .entity (.ofNat 0))]

def spareOil : Expr :=
  .field (.computed (.clone (.named "entity") [("Lamp", [("oil", .literal (.int 5))])])) "Lamp" "oil"

theorem lantern_compound :
    runAction tick (.modify (.named "entity") "Lamp" "oil" .add spareOil) lantern =
        runAction tick (.modify (.named "entity") "Lamp" "oil" .set
          (.binary .add (.field (.named "entity") "Lamp" "oil") spareOil)) lantern ∧
      (final (runAction tick (.modify (.named "entity") "Lamp" "oil" .add spareOil))
        lantern).world.field? (.ofNat 0) "Lamp" "oil" = some (.int 8) := by
  have hid : liveEntity? lantern.world (tick.lookUp lantern "entity") = some (.ofNat 0) := by
    decide +kernel
  have hcur : lantern.world.field? (.ofNat 0) "Lamp" "oil" = some (.int 3) := by decide +kernel
  have hroom : (final (evaluate tick spareOil) lantern).world.entityIds.length < 2 ^ 64 := by
    decide +kernel
  exact ⟨compound_modify rfl hid hcur hroom, by decide +kernel⟩

end Execution

end RuleSim
