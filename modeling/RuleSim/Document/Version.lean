import RuleSim.Error
import RuleSim.Json.Number
import RuleSim.Text.Blank

namespace RuleSim.Document

structure Version where
  major : Nat
  minor : Nat
deriving DecidableEq

namespace Version

def supportedMajor : Nat := 1

/-- A decimal number below 2 ^ 32, possibly with a plus sign. -/
def part? (cs : List Char) : Option Nat :=
  let ds := match cs with
    | '+' :: ds => ds
    | ds => ds
  if ds ≠ [] ∧ ds.all Char.isDigit then
    let n := Json.digitsValue ds
    if n < 2 ^ 32 then some n else none
  else none

def ofChars? (cs : List Char) : Option Version := do
  let major ← part? (cs.takeWhile (· ≠ '.'))
  match cs.dropWhile (· ≠ '.') with
  | [] => return ⟨major, 0⟩
  | _ :: rest => return ⟨major, ← part? rest⟩

/-- Blanks around a version are ignored, and a missing minor part is zero. -/
def parse (s : String) : Except Error Version :=
  match ofChars? (Text.trim s.toList) with
  | some v => .ok v
  | none => .error ⟨.invalidDocument (.malformedVersion s), none⟩

def isSupported (v : Version) : Bool := v.major ≤ supportedMajor

def check (s : String) : Except Error Version := do
  let v ← parse s
  if v.isSupported then return v
  else throw ⟨.unsupportedVersion s supportedMajor, none⟩

def text (v : Version) : String := s!"{v.major}.{v.minor}"

def compare (v w : Version) : Ordering :=
  (Ord.compare v.major w.major).then (Ord.compare v.minor w.minor)

end Version

end RuleSim.Document
