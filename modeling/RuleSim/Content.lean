import RuleSim.RuleSet
import RuleSim.World

namespace RuleSim

structure Content where
  world : World := {}
  rules : RuleSet := {}

structure InstallReport where
  components : Nat := 0
  rules : Nat := 0
  functions : Nat := 0
  entities : Nat := 0
deriving DecidableEq, Inhabited

namespace World

/-- The world with an entity as declared. Without an identifier of its own it gets a fresh one. -/
def withEntity (w : World) (d : EntityDecl) : Except Error (EntityId × World) := do
  let (id, w) ← match d.id with
    | some n => do pure (EntityId.ofNat n, ← w.createWithId (EntityId.ofNat n))
    | none => pure w.create
  let w ← match d.name with
    | some name => w.setName id name
    | none => pure w
  let w ← d.components.foldlM (fun w (component, init) => w.addComponent id component init) w
  let w ← d.boundFunctions.foldlM (fun w (name, f) => w.setBoundFunction id name f) w
  return (id, w)

def spawn (d : EntityDecl) : EStateM Error World EntityId := fun w =>
  match w.withEntity d with
  | .ok (id, w) => .ok id w
  | .error e => .error e w

def spawnAll : List EntityDecl → EStateM Error World (List EntityId)
  | [] => pure []
  | d :: ds => do
    let id ← spawn d
    return id :: (← spawnAll ds)

end World

namespace RuleSet

def addRules (s : RuleSet) (decls : List RuleDecl) : RuleSet := decls.foldl addRule s

def addFunctions (s : RuleSet) : List FunctionDecl → Nat × RuleSet
  | [] => (0, s)
  | f :: fs =>
    let (added, s) := s.addFunction f
    let (count, s) := addFunctions s fs
    (if added then count + 1 else count, s)

def addConstants (s : RuleSet) (constants : Fields Value) : RuleSet :=
  constants.foldl (fun s (name, v) => s.addConstant name v) s

end RuleSet

namespace Content

def onWorld {α : Type} (x : EStateM Error World α) : EStateM Error Content α := fun c =>
  match x c.world with
  | .ok a world => .ok a { c with world }
  | .error e world => .error e { c with world }

/-- Adds all that a module declares. A schema takes the place of an earlier one of its name. -/
def install (m : Module) : EStateM Error Content InstallReport := do
  let c ← get
  let (functions, rules) := (c.rules.addRules m.rules).addFunctions m.functions
  set { world := m.components.foldl (fun w d => w.register (.ofDecl d)) c.world
        rules := rules.addConstants m.constants : Content }
  let ids ← onWorld (World.spawnAll m.initialEntities)
  return { components := m.components.length, rules := m.rules.length, functions,
           entities := ids.length }

end Content

end RuleSim
