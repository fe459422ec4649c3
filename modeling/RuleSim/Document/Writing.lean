import RuleSim.Document
import RuleSim.Expr.Writing

namespace RuleSim

def natJson (n : Nat) : Json := .int n

def unlessNone (key : String) (items : List Json) : List (String × Json) :=
  if items.isEmpty then [] else [(key, .arr items)]

def FieldDecl.toJson (f : FieldDecl) : Json :=
  .obj ([("name", .str f.name), ("type", f.type.toJson)] ++
    optional "default" Value.toJson f.default)

def ComponentDecl.toJson (c : ComponentDecl) : Json :=
  .obj (optional "id" natJson c.id ++
    [("name", .str c.name), ("fields", .arr (c.fields.map FieldDecl.toJson))])

def Param.toJson (p : Param) : Json :=
  .obj (("name", .str p.name) :: optional "type" FieldType.toJson p.type)

def BoundFunction.toJson (f : BoundFunction) : Json :=
  .obj (("params", .arr (f.params.map Param.toJson)) ::
    optional "return_type" FieldType.toJson f.returnType ++ ("body", f.body.toJson) ::
    optional "source" .str f.source)

def FunctionDecl.toJson (f : FunctionDecl) : Json :=
  .obj (optional "id" natJson f.id ++ ("name", .str f.name) ::
    ("params", .arr (f.params.map Param.toJson)) ::
    optional "return_type" FieldType.toJson f.returnType ++ [("body", f.body.toJson)])

def Trigger.toJson (t : Trigger) : Json :=
  .obj (("type", .str t.kind) :: optional "event" .str t.event ++
    unlessEmpty "bindings" (t.bindings.map fun (k, v) => (k, .str v)))

def filterJson (components : List String) : Json :=
  .obj [("components", .arr (components.map .str))]

def RuleDecl.toJson (r : RuleDecl) : Json :=
  .obj (optional "id" natJson r.id ++ optional "name" .str r.name ++
    ("trigger", r.trigger.toJson) :: optional "filter" filterJson r.filter ++
    optional "condition" Expr.toJson r.condition ++
    [("priority", .int r.priority), ("actions", .arr (Action.toJsonItems r.actions))])

def EntityDecl.toJson (e : EntityDecl) : Json :=
  .obj (optional "id" natJson e.id ++ optional "name" .str e.name ++
    ("components", .obj (e.components.map fun (c, fs) => (c, .obj (Value.toJsonEntries fs)))) ::
    unlessEmpty "bound_functions" (e.boundFunctions.map fun (k, f) => (k, f.toJson)))

def initialStateJson (entities : List EntityDecl) : Json :=
  .obj [("entities", .arr (entities.map EntityDecl.toJson))]

def Module.toJson (m : Module) : Json :=
  .obj ([("version", .str m.version), ("module", .str m.name)] ++
    optional "metadata" id m.metadata ++
    [("components", .arr (m.components.map ComponentDecl.toJson)),
      ("rules", .arr (m.rules.map RuleDecl.toJson)),
      ("functions", .arr (m.functions.map FunctionDecl.toJson))] ++
    unlessNone "trackers" m.trackers ++
    unlessEmpty "constants" (Value.toJsonEntries m.constants) ++
    optional "initial_state" initialStateJson m.initialState ++
    unlessNone "choice_functions" m.choiceFunctions ++
    unlessNone "choice_points" m.choicePoints ++
    optional "source_map" id m.sourceMap)

end RuleSim
