import RuleSim.Expr

namespace RuleSim

def node (type : String) (entries : List (String × Json)) : Json :=
  .obj (("type", .str type) :: entries)

mutual

def Expr.toJson : Expr → Json
  | .literal v => node "literal" [("value", v.toJson)]
  | .var name => node "var" [("name", .str name)]
  | .param name => node "param" [("name", .str name)]
  | .field e c f => node "field" [("entity", e.toJson), ("component", .str c), ("field", .str f)]
  | .binary op l r => node "binary" [("op", .str op.name), ("left", l.toJson), ("right", r.toJson)]
  | .unary op e => node "unary" [("op", .str op.name), ("expr", e.toJson)]
  | .call f args => node "call" [("function", .str f), ("args", .arr (Expr.toJsonItems args))]
  | .choice c t e =>
    node "if" [("condition", c.toJson), ("then", t.toJson), ("else", e.toJson)]
  | .clone e overrides =>
    node "clone" [("entity", e.toJson), ("overrides", .arr (Expr.toJsonOverrides overrides))]
  | .boundCall e f args =>
    node "bound_call"
      [("entity", e.toJson), ("function", .str f), ("args", .arr (Expr.toJsonItems args))]

def EntityRef.toJson : EntityRef → Json
  | .named name => .str name
  | .computed e => e.toJson

def Expr.toJsonItems : List Expr → List Json
  | [] => []
  | e :: es => e.toJson :: Expr.toJsonItems es

def Expr.toJsonFields : List (String × Expr) → List (String × Json)
  | [] => []
  | (k, e) :: rest => (k, e.toJson) :: Expr.toJsonFields rest

def Expr.toJsonOverrides : List (String × List (String × Expr)) → List Json
  | [] => []
  | (c, fields) :: rest =>
    .obj [("component", .str c), ("fields", .obj (Expr.toJsonFields fields))] ::
      Expr.toJsonOverrides rest

end

def ComponentInit.toJson (c : ComponentInit) : Json :=
  .obj [("name", .str c.name), ("fields", .obj (Expr.toJsonFields c.fields))]

def optional {α : Type} (key : String) (f : α → Json) : Option α → List (String × Json)
  | none => []
  | some a => [(key, f a)]

def unlessEmpty (key : String) (entries : List (String × Json)) : List (String × Json) :=
  if entries.isEmpty then [] else [(key, .obj entries)]

def EventSpec.entries (s : EventSpec) : List (String × Json) :=
  optional "source" Expr.toJson s.source ++ optional "target" Expr.toJson s.target ++
    unlessEmpty "fields" (Expr.toJsonFields s.fields)

mutual

def Action.toJson : Action → Json
  | .modify e c f op v =>
    node "modify" [("entity", e.toJson), ("component", .str c), ("field", .str f),
      ("op", .str op.name), ("value", v.toJson)]
  | .schedule s delay interval =>
    node "schedule" (("event", .str s.event) :: optional "delay" Expr.toJson delay ++ s.entries ++
      optional "interval" Expr.toJson interval)
  | .emit s => node "emit" (("event", .str s.event) :: s.entries)
  | .spawn components => node "spawn" [("components", .arr (components.map ComponentInit.toJson))]
  | .despawn e => node "despawn" [("entity", e.toJson)]
  | .addComponent e c => node "add_component" [("entity", e.toJson), ("component", c.toJson)]
  | .removeComponent e c => node "remove_component" [("entity", e.toJson), ("component", .str c)]
  | .branch c t none =>
    node "conditional" [("condition", c.toJson), ("then_actions", .arr (Action.toJsonItems t))]
  | .branch c t (some e) =>
    node "conditional" [("condition", c.toJson), ("then_actions", .arr (Action.toJsonItems t)),
      ("else_actions", .arr (Action.toJsonItems e))]
  | .each x items body =>
    node "loop" [("variable", .str x), ("iterable", items.toJson),
      ("body", .arr (Action.toJsonItems body))]
  | .bind name v => node "let" [("name", .str name), ("value", v.toJson)]
  | .repeatWhile c body =>
    node "while" [("condition", c.toJson), ("body", .arr (Action.toJsonItems body))]

def Action.toJsonItems : List Action → List Json
  | [] => []
  | a :: as => a.toJson :: Action.toJsonItems as

end

end RuleSim
