import RuleSim.Operator

namespace RuleSim

abbrev Fields (α : Type) := List (String × α)

mutual

inductive Expr where
  | literal (value : Value)
  /-- A local, event field or constant; `@` and a name is an entity. -/
  | var (name : String)
  | param (name : String)
  | field (entity : EntityRef) (component field : String)
  | binary (op : BinaryOp) (left right : Expr)
  | unary (op : UnaryOp) (operand : Expr)
  | call (function : String) (args : List Expr)
  | choice (condition whenTrue whenFalse : Expr)
  | clone (entity : EntityRef) (overrides : List (String × List (String × Expr)))
  | boundCall (entity : EntityRef) (function : String) (args : List Expr)

inductive EntityRef where
  | named (name : String)
  | computed (e : Expr)

end

instance : Inhabited Expr := ⟨.literal .null⟩

namespace Expr

def fieldOf (entity component field : String) : Expr := .field (.named entity) component field

end Expr

inductive ModifyOp where
  | set
  | add
  | subtract
  | multiply
  | divide
deriving DecidableEq, Inhabited

namespace ModifyOp

def name : ModifyOp → String
  | set => "set"
  | add => "add"
  | subtract => "subtract"
  | multiply => "multiply"
  | divide => "divide"

def ofName? (s : String) : Option ModifyOp :=
  match s with
  | "set" | "=" => some set
  | "add" | "+=" => some add
  | "subtract" | "-=" => some subtract
  | "multiply" | "*=" => some multiply
  | "divide" | "/=" => some divide
  | _ => none

def operator? : ModifyOp → Option BinaryOp
  | set => none
  | add => some .add
  | subtract => some .subtract
  | multiply => some .multiply
  | divide => some .divide

end ModifyOp

structure ComponentInit where
  name : String
  fields : Fields Expr
deriving Inhabited

structure EventSpec where
  event : String
  source : Option Expr
  target : Option Expr
  fields : Fields Expr
deriving Inhabited

inductive Action where
  | modify (entity : EntityRef) (component field : String) (op : ModifyOp) (value : Expr)
  | schedule (spec : EventSpec) (delay interval : Option Expr)
  | emit (spec : EventSpec)
  | spawn (components : List ComponentInit)
  | despawn (entity : EntityRef)
  | addComponent (entity : EntityRef) (component : ComponentInit)
  | removeComponent (entity : EntityRef) (component : String)
  | branch (condition : Expr) (whenTrue : List Action) (whenFalse : Option (List Action))
  | each (name : String) (items : Expr) (body : List Action)
  | bind (name : String) (value : Expr)
  | repeatWhile (condition : Expr) (body : List Action)
deriving Inhabited

def Action.kind : Action → String
  | modify .. => "modify"
  | schedule .. => "schedule"
  | emit .. => "emit"
  | spawn .. => "spawn"
  | despawn .. => "despawn"
  | addComponent .. => "add_component"
  | removeComponent .. => "remove_component"
  | branch .. => "conditional"
  | each .. => "loop"
  | bind .. => "let"
  | repeatWhile .. => "while"

end RuleSim
