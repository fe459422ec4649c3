import RuleSim.Json

namespace RuleSim.Json

def digitOf (c : Char) : Nat := c.toNat - '0'.toNat

/-- Appends digits while the result stays below 2 ^ 64; also gives the digits left. -/
def appendDigits (n : Nat) : List Char → Nat × List Char
  | [] => (n, [])
  | c :: cs =>
    if n * 10 + digitOf c < 2 ^ 64 then appendDigits (n * 10 + digitOf c) cs else (n, c :: cs)

def digitsValue (cs : List Char) : Nat := cs.foldl (fun n c => n * 10 + digitOf c) 0

structure NumberText where
  negative : Bool
  whole : List Char
  fraction : Option (List Char)
  exponent : Option (Bool × List Char)
deriving Inhabited

def exponentOf? : List Char → Option (Option (Bool × List Char))
  | [] => some none
  | e :: cs =>
    let (down, ds) := match cs with
      | '-' :: ds => (true, ds)
      | '+' :: ds => (false, ds)
      | ds => (false, ds)
    if (e = 'e' ∨ e = 'E') ∧ ds ≠ [] ∧ ds.all Char.isDigit then some (some (down, ds)) else none

/-- Splits a number's text; leading zeros and empty digit runs are refused. -/
def NumberText.ofChars? (cs : List Char) : Option NumberText := do
  let (negative, cs) := match cs with
    | '-' :: cs => (true, cs)
    | cs => (false, cs)
  let whole := cs.takeWhile Char.isDigit
  if whole = [] ∨ (whole.head? = some '0' ∧ whole.length > 1) then none
  match cs.dropWhile Char.isDigit with
  | '.' :: cs =>
    let fraction := cs.takeWhile Char.isDigit
    if fraction = [] then none
    let exponent ← exponentOf? (cs.dropWhile Char.isDigit)
    return { negative, whole, fraction := some fraction, exponent }
  | cs =>
    let exponent ← exponentOf? cs
    return { negative, whole, fraction := none, exponent }

/-- `x * 10 ^ e`, one rounding for each factor up to `10 ^ 308`; nothing on overflow. -/
def scaled? (x : Binary64) (e : Int) : (fuel : Nat) → Option Binary64
  | 0 => some x
  | fuel + 1 =>
    if e.natAbs ≤ 308 then
      let power := Binary64.ofRatio (10 ^ e.natAbs) 1
      let y := if e ≥ 0 then x * power else x / power
      if e ≥ 0 ∧ y.isInf then none else some y
    else if x.isZero then some x
    else if e ≥ 0 then none
    else scaled? (x / Binary64.ofRatio (10 ^ 308) 1) (e + 308) fuel

/-- Largest exponent in a text; digits that go beyond it are not counted. -/
def maxExponent : Nat := 2 ^ 31 - 1

def NumberText.significand (t : NumberText) : Nat × Int :=
  let (n, unread) := appendDigits 0 t.whole
  match t.fraction with
  | none => (n, unread.length)
  | some fraction =>
    let (n', dropped) := appendDigits n fraction
    (n', (unread.length : Int) - (fraction.length - dropped.length : Nat))

def NumberText.binary? (t : NumberText) : Option Binary64 := do
  let (n, point) := t.significand
  let signed (x : Binary64) := if t.negative then -x else x
  match t.exponent with
  | none => return signed (← scaled? (Binary64.ofInt n) point 5)
  | some (down, ds) =>
    let e := digitsValue ds
    if e > maxExponent then
      if n ≠ 0 ∧ !down then none else return signed Binary64.zero
    else
      let e : Int := if down then point - e else point + e
      return signed (← scaled? (Binary64.ofInt n) e 5)

/-- A number without fraction and exponent is whole if it fits 64 bits. Any other is read in binary
and scaled by powers of ten, each step rounded, so that a long text may miss the nearest number. -/
def NumberText.leaf? (t : NumberText) : Option Json := do
  let (n, unread) := appendDigits 0 t.whole
  if t.fraction.isSome ∨ t.exponent.isSome ∨ unread ≠ [] then
    return float (← t.binary?)
  else if !t.negative then return int n
  else if 0 < n ∧ n ≤ 2 ^ 63 then return int (-n)
  else return float (-(Binary64.ofInt n))

def ofNumber? (cs : List Char) : Option Json := (NumberText.ofChars? cs).bind NumberText.leaf?

end RuleSim.Json
