import RuleSim.Proofs.Simulation.Replay

namespace RuleSim

open World (Asks)

abbrev World.Leads (w w' : World) : Prop := Asks (fun _ => True) w w'

theorem World.Asks.leads {kind : World.Request → Prop} {w w' : World} (h : Asks kind w w') :
    w.Leads w' := h.mono fun _ _ => trivial

theorem Merge.SchemaChange.apply_leads (w : World) (change : SchemaChange) :
    w.Leads (change.apply w) := by
  cases change with
  | register schema => exact w.asks_perform (r := .register schema) trivial
  | change component fields =>
      unfold apply
      dsimp only
      induction fields generalizing w with
      | nil => exact .refl w
      | cons f fields ih =>
          exact (w.asks_perform (r := .mergeField component f.schema) trivial).trans (ih _)

namespace Content

theorem declared_leads (m : Module) (w : World) : w.Leads (declared m w) := by
  unfold declared
  induction m.components generalizing w with
  | nil => exact .refl w
  | cons d ds ih => exact (w.asks_perform (r := .register (.ofDecl d)) trivial).trans (ih _)

theorem planned_leads (m : Module) (options : MergeOptions) (changes : List Merge.SchemaChange)
    (c : Content) : c.world.Leads (planned m options changes c).world := by
  unfold planned
  dsimp only
  generalize c.world = w
  induction changes generalizing w with
  | nil => exact .refl w
  | cons change changes ih => exact (change.apply_leads w).trans (ih _)

theorem install_leads (m : Module) (c : Content) : c.world.Leads (final (install m) c).world := by
  rw [final_install]
  exact (declared_leads m c.world).trans (World.spawnAll_asks ..).leads

theorem merge_leads (m : Module) (options : MergeOptions) (c : Content) :
    c.world.Leads (final (merge m options) c).world := by
  rcases final_merge m options c with ⟨-, h⟩ | ⟨changes, -, h⟩
  · rw [h]
    exact .refl _
  · rw [h]
    exact (planned_leads m options changes c).trans (World.spawnAll_asks ..).leads

theorem spawnAll_leads (ds : List EntityDecl) (c : Content) :
    c.world.Leads (final (onWorld (World.spawnAll ds)) c).world := by
  rw [final_onWorld]
  exact (World.spawnAll_asks ..).leads

end Content

namespace Engine

def Request.Proper : Request → Prop
  | .modifyWorld _ => False
  | _ => True

theorem perform_leads (e : Engine) {r : Request} (hr : r.Proper) :
    e.world.Leads (e.perform r).world := by
  cases r with
  | install m =>
      rw [perform, Engine.install, final_onContent]
      exact Content.install_leads m ⟨e.world, e.rules⟩
  | merge m options =>
      rw [perform, Engine.merge, final_onContent]
      exact Content.merge_leads m options ⟨e.world, e.rules⟩
  | spawnAll ds =>
      rw [perform, Engine.spawnAll, final_onContent]
      exact Content.spawnAll_leads ds ⟨e.world, e.rules⟩
  | setWatchdog d => exact e.disarmWatchdog_keeps.world.leads
  | modifyWorld f => exact hr.elim
  | schedule | cancel | arm | disarm | setTracing | step | process =>
      refine (e.perform_keeps ?_).world.leads
      exact trivial
  | reset => exact e.world.asks_perform (r := .clearEntities) trivial
  | clear =>
      exact (e.world.asks_perform (r := .clearEntities) trivial).trans
        (e.world.clearEntities.asks_perform (r := .clear) trivial)

structure Moving (R : Engine → Engine → Prop) : Prop where
  trans {e f g : Engine} (h : R e f) (h' : R f g) : R e g
  keeps {e f : Engine} (h : Keeps e f) : R e f
  perform (e : Engine) {r : Request} (hr : r.Proper) : R e (e.perform r)
  world (e : Engine) (r : World.Request) : R e (e.modifyWorld (·.perform r))

theorem leads_moving : Moving fun e f => e.world.Leads f.world where
  trans := Asks.trans
  keeps h := h.world.leads
  perform := perform_leads
  world e _ := e.world.asks_perform trivial

end Engine

namespace Simulation

inductive Operation where
  | load (m : Module)
  | setInitialEntities (ds : List EntityDecl)
  | merge (m : Module) (options : MergeOptions)
  | reset
  | call (c : Call)
  | engine (r : Engine.Request) (h : r.Proper)
  | world (r : World.Request)

def operate (s : Simulation) : Operation → Simulation
  | .load m => final (load m) s
  | .setInitialEntities ds => final (setInitialEntities ds) s
  | .merge m options => final (merge m options) s
  | .reset => final reset s
  | .call c => final (perform c) s
  | .engine r _ => { s with engine := s.engine.perform r }
  | .world r => { s with engine := s.engine.modifyWorld (·.perform r) }

inductive Reachable : Simulation → Prop
  | new (config : Config) : Reachable (new config)
  | operation {s : Simulation} (o : Operation) : Reachable s → Reachable (s.operate o)

/-- The operation is one of the simulation itself, not one on its engine or its world. -/
def Operation.Own : Operation → Prop
  | .engine .. | .world _ => False
  | _ => True

theorem Drives.operate {R : Simulation → Simulation → Prop} (hR : Drives R) (s : Simulation)
    {o : Operation} (ho : o.Own) : R s (s.operate o) := by
  cases o with
  | load m => exact hR.load m s
  | setInitialEntities ds => exact hR.setInitialEntities ds s
  | merge m options => exact hR.merge m options s
  | reset => exact hR.reset s
  | call c => exact hR.perform c s
  | engine | world => exact ho.elim

section Moves

variable {R : Engine → Engine → Prop} (hR : Engine.Moving R)

include hR

theorem moving_drives : Drives fun s t => R s.engine t.engine where
  refl s := hR.keeps (.refl _)
  trans := hR.trans
  entered s _ := hR.keeps (.refl _)
  told s _ := hR.keeps (.refl _)
  request s r hr := hR.perform s.engine (by cases r <;> trivial)
  written {s id component field v world} h :=
    hR.keeps (s.engine.keeps_of_world (World.Edit.setField id component field v h).asks ..)
  drained s := hR.keeps (s.engine.keeps_of_world (.refl _) ..)
  captured s _ := hR.keeps (.refl _)
  forgotten s := hR.keeps (.refl _)
  content s r hr := hR.perform s.engine (by cases r <;> trivial)
  listed s _ _ := hR.keeps (.refl _)
  emptied s := hR.world s.engine .clearEntities
  restarted s := hR.perform s.engine (r := .reset) trivial
  unloaded s := hR.perform s.engine (r := .clear) trivial

theorem operate_moves (s : Simulation) (o : Operation) : R s.engine (s.operate o).engine := by
  cases o with
  | engine r h => exact hR.perform s.engine h
  | world r => exact hR.world s.engine r
  | _ => exact (moving_drives hR).operate s trivial

end Moves

theorem Reachable.world {s : Simulation} (h : s.Reachable) : World.Reachable s.world := by
  induction h with
  | new config => exact .empty
  | operation o _ ih => exact (operate_moves Engine.leads_moving _ o).reachable ih

end Simulation

end RuleSim
