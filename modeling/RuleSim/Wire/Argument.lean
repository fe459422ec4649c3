import RuleSim.Scheduler
import RuleSim.Wire.Value

namespace RuleSim.Wire

def part (j : Json) (key : String) : Json := (j.field? key).getD .null

def valueAt (j : Json) (key : String) : Value := ofJson (part j key)

def textAt? (j : Json) (key : String) : Option String :=
  match part j key with
  | .str s => some s
  | _ => none

def textAt (j : Json) (key : String) : String := (textAt? j key).getD ""

def nat? : Json → Option Nat
  | .int n => if 0 ≤ n then some n.toNat else none
  | _ => none

def natAt? (j : Json) (key : String) : Option Nat := nat? (part j key)

def natAt (j : Json) (key : String) : Nat := (natAt? j key).getD 0

def entityAt? (j : Json) (key : String) : Option EntityId := (natAt? j key).map EntityId.ofNat

def entityAt (j : Json) (key : String) : EntityId := EntityId.ofNat (natAt j key)

def flagAt (j : Json) (key : String) : Bool :=
  match part j key with
  | .bool b => b
  | _ => false

def itemsAt (j : Json) (key : String) : List Json :=
  match part j key with
  | .arr items => items
  | _ => []

def textsAt (j : Json) (key : String) : List String :=
  (itemsAt j key).filterMap fun
    | .str s => some s
    | _ => none

def valuesAt (j : Json) (key : String) : List (String × Value) :=
  match part j key with
  | .obj entries => entries.map fun (k, v) => (k, ofJson v)
  | _ => []

def toNumber : Json → Binary64
  | .int n => Binary64.ofInt n
  | .float x => x
  | .str s => (number? s).getD Binary64.zero
  | _ => Binary64.zero

def numberAt (j : Json) (key : String) : Binary64 := toNumber (part j key)

def numberAt? (j : Json) (key : String) : Option Binary64 := (j.given? key).map toNumber

def bytesAt (j : Json) (key : String) : List UInt8 := ofHex (textAt j key).toList

def payload (j : Json) : Payload :=
  { source := entityAt? j "source", target := entityAt? j "target", fields := valuesAt j "fields" }

end RuleSim.Wire
