import RuleSim.Expr

namespace RuleSim

structure FieldDecl where
  name : String
  type : FieldType
  default : Option Value := none

structure ComponentDecl where
  id : Option Nat := none
  name : String
  fields : List FieldDecl

structure Param where
  name : String
  type : Option FieldType := none

structure BoundFunction where
  params : List Param
  returnType : Option FieldType := none
  body : Expr
  source : Option String := none

structure FunctionDecl where
  id : Option Nat := none
  name : String
  params : List Param
  returnType : Option FieldType := none
  body : Expr

structure Trigger where
  kind : String
  event : Option String
  bindings : Fields String

structure RuleDecl where
  id : Option Nat := none
  name : Option String := none
  trigger : Trigger
  /-- Components that an entity must carry for the rule to consider it. -/
  filter : Option (List String) := none
  condition : Option Expr := none
  priority : Int := 0
  actions : List Action

structure EntityDecl where
  id : Option Nat := none
  name : Option String := none
  components : Fields (Fields Value)
  boundFunctions : Fields BoundFunction

/-- A rule module. Its numbers are below 2 ^ 64 and its maps in ascending key order, as reading
leaves them. Metadata, trackers, choices and the source map are carried through. -/
structure Module where
  version : String
  name : String
  metadata : Option Json := none
  components : List ComponentDecl := []
  rules : List RuleDecl := []
  functions : List FunctionDecl := []
  trackers : List Json := []
  constants : Fields Value := []
  initialState : Option (List EntityDecl) := none
  choiceFunctions : List Json := []
  choicePoints : List Json := []
  sourceMap : Option Json := none

namespace Trigger

def onEvent (event : String) : Trigger := ⟨"event", some event, []⟩

def withBinding (t : Trigger) (name slot : String) : Trigger :=
  { t with bindings := Table.put t.bindings name slot }

end Trigger

def RuleDecl.requiredComponents (r : RuleDecl) : List String := r.filter.getD []

namespace Module

def empty (name : String) : Module := { version := "1.0", name }

def initialEntities (m : Module) : List EntityDecl := m.initialState.getD []

def component? (m : Module) (name : String) : Option ComponentDecl :=
  m.components.find? (·.name = name)

end Module

end RuleSim
