import RuleSim.Table
import RuleSim.Number.Binary64

namespace RuleSim

/-- A document tree. One that was read has its object entries in ascending key order, and one that
is about to be written has them in the order of the writer. -/
inductive Json where
  | null
  | bool (b : Bool)
  | int (n : Int)
  | float (x : Binary64)
  | str (s : String)
  | arr (items : List Json)
  | obj (entries : List (String × Json))
deriving Inhabited

namespace Json

def isNull : Json → Bool
  | null => true
  | _ => false

def field? (j : Json) (key : String) : Option Json :=
  match j with
  | obj entries => Table.find? entries key
  | _ => none

def given? (j : Json) (key : String) : Option Json :=
  match j.field? key with
  | some .null => none
  | v => v

mutual

def beq : Json → Json → Bool
  | null, null => true
  | bool a, bool b => a == b
  | int a, int b => a == b
  | float a, float b => a == b
  | str a, str b => a == b
  | arr a, arr b => beqItems a b
  | obj a, obj b => beqEntries a b
  | _, _ => false

def beqItems : List Json → List Json → Bool
  | [], [] => true
  | a :: as, b :: bs => beq a b && beqItems as bs
  | _, _ => false

def beqEntries : List (String × Json) → List (String × Json) → Bool
  | [], [] => true
  | (k, a) :: as, (l, b) :: bs => k == l && beq a b && beqEntries as bs
  | _, _ => false

end

instance : BEq Json := ⟨beq⟩

end Json

end RuleSim
