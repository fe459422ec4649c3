import RuleSim.Builtin
import RuleSim.Document

namespace RuleSim

structure Rule where
  id : Nat
  loadIndex : Nat
  decl : RuleDecl

namespace Rule

def name (r : Rule) : String := r.decl.name.getD s!"rule#{r.id}"

def event (r : Rule) : String := r.decl.trigger.event.getD ""

def priority (r : Rule) : Int := r.decl.priority

end Rule

/-- Rules are only added. Those of one event type are kept by descending priority, and those of one
priority in the order in which they were added. Of two functions of one name the earlier stays. -/
structure RuleSet where
  rules : List Rule := []
  byEvent : Table String (List Rule) := []
  functions : Table String FunctionDecl := []
  constants : Table String Value := []

namespace RuleSet

def empty : RuleSet := {}

/-- Places a rule after all rules of its priority or a higher one. -/
def place (r : Rule) : List Rule → List Rule
  | [] => [r]
  | s :: rest => if r.priority ≤ s.priority then s :: place r rest else r :: s :: rest

def rulesFor (s : RuleSet) (event : String) : List Rule := (s.byEvent.find? event).getD []

/-- Adds a rule. Without an identifier it takes its position. -/
def addRule (s : RuleSet) (decl : RuleDecl) : RuleSet :=
  let rule : Rule := ⟨decl.id.getD s.rules.length, s.rules.length, decl⟩
  { s with
    rules := s.rules ++ [rule]
    byEvent := s.byEvent.put rule.event (place rule (s.rulesFor rule.event)) }

def addFunction (s : RuleSet) (f : FunctionDecl) : Bool × RuleSet :=
  if s.functions.contains f.name then (false, s)
  else (true, { s with functions := s.functions.put f.name f })

def addConstant (s : RuleSet) (name : String) (v : Value) : RuleSet :=
  if s.constants.contains name then s else { s with constants := s.constants.put name v }

def function? (s : RuleSet) (name : String) : Option FunctionDecl := s.functions.find? name

def constant? (s : RuleSet) (name : String) : Option Value := s.constants.find? name

def hasId (s : RuleSet) (id : Nat) : Bool := s.rules.any (·.id = id)

def maxId? (s : RuleSet) : Option Nat := (s.rules.map (·.id)).max?

end RuleSet

end RuleSim
