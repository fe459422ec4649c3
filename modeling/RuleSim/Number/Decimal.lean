import RuleSim.Number.Binary64

namespace RuleSim

/-- The number `0.d₁d₂… * 10 ^ point`, its digits as characters. -/
structure Decimal where
  digits : List Char
  point : Int
deriving DecidableEq

namespace Decimal

inductive Tie where
  | up
  | even
deriving DecidableEq

/-- The sizes that round to one magnitude, in half units. -/
structure Interval where
  low : Nat
  high : Nat
  closed : Bool

def Interval.around (mag : Nat) : Interval where
  low := Binary64.units (mag - 1) + Binary64.units mag
  high := Binary64.units mag + Binary64.units (mag + 1)
  closed := mag % 2 = 0

def Interval.contains (i : Interval) (num den : Nat) : Bool :=
  if i.closed then i.low * den ≤ num && num ≤ i.high * den
  else i.low * den < num && num < i.high * den

/-- The `point` of a size: `10 ^ (point - 1) ≤ size < 10 ^ point`. -/
def pointOf (u : Nat) : Int :=
  let estimate := ((u.log2 : Int) - 1074) * 30103 / 100000 + 1
  let reached :=
    if estimate ≥ 0 then Binary64.unitsPerOne * 10 ^ estimate.toNat ≤ u
    else Binary64.unitsPerOne ≤ u * 10 ^ (-estimate).toNat
  if reached then estimate + 1 else estimate

def onGrid (tie : Tie) (i : Interval) (u : Nat) (e : Int) : Option Nat :=
  let scale := 10 ^ (-e).toNat
  let step := 2 * Binary64.unitsPerOne * 10 ^ e.toNat
  let value := 2 * u * scale
  let below := value / step
  let inside (d : Nat) := i.contains (d * step) scale
  match inside below, inside (below + 1) with
  | false, false => none
  | true, false => some below
  | false, true => some (below + 1)
  | true, true =>
    match compare (2 * (value - below * step)) step, tie with
    | .lt, _ => some below
    | .gt, _ => some (below + 1)
    | .eq, .up => some (below + 1)
    | .eq, .even => some (if below % 2 = 0 then below else below + 1)

def ofNat (n : Nat) (e : Int) : Decimal :=
  let ds := Nat.toDigits 10 n
  { digits := (ds.reverse.dropWhile (· = '0')).reverse, point := ds.length + e }

def firstGrid (tie : Tie) (i : Interval) (u : Nat) (point : Int) : (count fuel : Nat) → Decimal
  | _, 0 => ofNat u 0
  | count, fuel + 1 =>
    let e := point - count
    match onGrid tie i u e with
    | some d => ofNat d e
    | none => firstGrid tie i u point (count + 1) fuel

/-- The fewest digits that read back as a positive finite magnitude; 17 always suffice. -/
def shortest (tie : Tie) (mag : Nat) : Decimal :=
  let u := Binary64.units mag
  firstGrid tie (.around mag) u (pointOf u) 1 17

end Decimal

/-- How a finite number is laid out. Sizes in `10 ^ lowest ≤ size < 10 ^ highest` are positional,
others have an exponent. -/
structure Layout where
  lowest : Option Int
  highest : Option Int
  markWhole : Bool
  tie : Decimal.Tie

namespace Layout

/-- For people: never an exponent, no mark on whole numbers. -/
def plain : Layout := ⟨none, none, false, .up⟩

def debug : Layout := ⟨some (-4), some 16, true, .up⟩

def json : Layout := ⟨some (-5), some 16, true, .even⟩

def zeros (n : Int) : List Char := List.replicate n.toNat '0'

def isPositional (f : Layout) (point : Int) : Bool :=
  f.lowest.all (· < point) && f.highest.all (point ≤ ·)

def positional (f : Layout) (d : Decimal) : List Char :=
  let whole := d.digits.take d.point.toNat ++ zeros (d.point - d.digits.length)
  let rest := zeros (-d.point) ++ d.digits.drop d.point.toNat
  (if whole.isEmpty then ['0'] else whole) ++
    (if !rest.isEmpty then '.' :: rest else if f.markWhole then ['.', '0'] else [])

def exponential (d : Decimal) : List Char :=
  let rest := d.digits.drop 1
  d.digits.take 1 ++ (if rest.isEmpty then [] else '.' :: rest) ++
    'e' :: (toString (d.point - 1)).toList

def size (f : Layout) (mag : Nat) : List Char :=
  if mag = 0 then if f.markWhole then ['0', '.', '0'] else ['0']
  else
    let d := Decimal.shortest f.tie mag
    if f.isPositional d.point then f.positional d else exponential d

def text (f : Layout) (x : Binary64) : String :=
  if x.isNaN then "NaN"
  else
    let body := if x.isInf then ['i', 'n', 'f'] else f.size x.magnitude
    String.ofList (if x.negative then '-' :: body else body)

end Layout

end RuleSim
