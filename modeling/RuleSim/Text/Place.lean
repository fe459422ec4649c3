import RuleSim.Json.Number

namespace RuleSim.Text

structure Place where
  line : Nat
  column : Nat
deriving DecidableEq

def Place.text : Place → String
  | ⟨line, column⟩ => s!" at line {line} column {column}"

/-- What stands before the number at the end of a text, and the number, which has to fit 64 bits. -/
def endingNumber? (cs : List Char) : Option (List Char × Nat) :=
  let ds := (cs.reverse.takeWhile Char.isDigit).reverse
  let n := Json.digitsValue ds
  if ds ≠ [] ∧ n < 2 ^ 64 then some ((cs.reverse.dropWhile Char.isDigit).reverse, n) else none

def endingPlace? (cs : List Char) : Option (List Char × Place) := do
  let (cs, column) ← endingNumber? cs
  let cs ← " column ".toList.isSuffixOf? cs
  let (cs, line) ← endingNumber? cs
  let cs ← " at line ".toList.isSuffixOf? cs
  return (cs, ⟨line, column⟩)

/-- A message with the place at its end written anew; only the last place is looked at. -/
def withPlainPlace (message : String) : String :=
  match endingPlace? message.toList with
  | some (body, place) => String.ofList body ++ if place.line = 0 then "" else place.text
  | none => message

end RuleSim.Text
