import RuleSim.Text.Place
import RuleSim.Text.Quoted

namespace RuleSim.Document

inductive Shape where
  | object
  | array
  | string

def Shape.name : Shape → String
  | object => "object"
  | array => "array"
  | string => "string"

inductive Flaw where
  | malformedJson
  | malformedMessagePack
  | malformedVersion (text : String)
  | rootNotObject
  | expected (path : String) (shape : Shape)
  | missing (path key : String)
  | unknownFieldType (name : String)
  /-- A part has the wrong form although all required parts are there. -/
  | shape
  | unsupportedTrigger (rule : Nat) (kind : String)
  | duplicateEntity (index id : Nat)
  | note (text : String)

def Flaw.message : Flaw → String
  | malformedJson => "malformed JSON"
  | malformedMessagePack => "malformed MessagePack"
  | malformedVersion text => "malformed version string: " ++ Text.quoted text
  | rootNotObject => "module must be an object"
  | expected path s => path ++ ": expected " ++ s.name
  | missing path key => path ++ ": missing required field `" ++ key ++ "`"
  | unknownFieldType name => Text.withPlainPlace ("unknown field type: " ++ name)
  | shape => "unexpected shape"
  | unsupportedTrigger rule kind =>
    s!"rules[{rule}].trigger: unsupported trigger type `" ++ kind ++ "`"
  | duplicateEntity index id =>
    s!"initial_state.entities[{index}]: duplicate entity id {id}"
  | note text => text

end RuleSim.Document
