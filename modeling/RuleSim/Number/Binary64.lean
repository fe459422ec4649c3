namespace RuleSim

-- A power of numbers is the one of the core library, whatever algebra is imported besides.
attribute [instance (high), default_instance 100000] instPowNat

/-- A sign and a magnitude, the lower 63 bits read as a natural number. Magnitudes are ordered like
the sizes they stand for, and every finite size is a whole number of units of 2 ^ -1074. -/
structure Binary64 where
  bits : UInt64
deriving DecidableEq, Inhabited

namespace Binary64

/-- Magnitude of an infinity; larger magnitudes are not numbers. -/
def infMagnitude : Nat := 2047 * 2 ^ 52

def signBit : Nat := 2 ^ 63

def unitsPerOne : Nat := 2 ^ 1074

def negative (x : Binary64) : Bool := signBit ≤ x.bits.toNat

def magnitude (x : Binary64) : Nat := x.bits.toNat % signBit

def make (neg : Bool) (mag : Nat) : Binary64 :=
  ⟨(mag + if neg then signBit else 0).toUInt64⟩

def isNaN (x : Binary64) : Bool := infMagnitude < x.magnitude

def isInf (x : Binary64) : Bool := x.magnitude = infMagnitude

def isFinite (x : Binary64) : Bool := x.magnitude < infMagnitude

def isZero (x : Binary64) : Bool := x.magnitude = 0

/-- Size of a finite magnitude in units. The step to `infMagnitude` continues the grid. -/
def units (mag : Nat) : Nat :=
  if mag / 2 ^ 52 = 0 then mag else (2 ^ 52 + mag % 2 ^ 52) * 2 ^ (mag / 2 ^ 52 - 1)

/-- The largest magnitude whose size does not exceed `n` units. -/
def floorMagnitude (n : Nat) : Nat :=
  if n < 2 ^ 52 then n
  else
    let e := n.log2 - 51
    e * 2 ^ 52 + (n / 2 ^ (e - 1) - 2 ^ 52)

/-- The magnitude nearest to `num / den` units, a tie to the even one. -/
def nearest (num den : Nat) : Nat :=
  let m := floorMagnitude (num / den)
  let middle := (units m + units (m + 1)) * den
  let r := if 2 * num < middle ∨ (2 * num = middle ∧ m % 2 = 0) then m else m + 1
  min r infMagnitude

def zero : Binary64 := make false 0

def infinity (neg : Bool) : Binary64 := make neg infMagnitude

/-- The answer of an operation that has none, such as an infinity less itself. -/
def undefinedNaN : Binary64 := make true (infMagnitude + 2 ^ 51)

def nan : Binary64 := make false (infMagnitude + 2 ^ 51)

/-- A NaN as it leaves an operation: its leading fraction bit is set. -/
def quiet (x : Binary64) : Binary64 :=
  make x.negative (if x.magnitude / 2 ^ 51 % 2 = 0 then x.magnitude + 2 ^ 51 else x.magnitude)

def neg (x : Binary64) : Binary64 := make (!x.negative) x.magnitude

def abs (x : Binary64) : Binary64 := make false x.magnitude

def toUnits (x : Binary64) : Int :=
  if x.negative then -(units x.magnitude : Int) else units x.magnitude

/-- The number nearest to a whole number of units; zero takes the given sign. -/
def ofUnits (zeroNegative : Bool) (n : Int) : Binary64 :=
  if n = 0 then make zeroNegative 0 else make (n < 0) (nearest n.natAbs 1)

def ofInt (n : Int) : Binary64 :=
  ofUnits false (n * unitsPerOne)

def ofRatio (num den : Nat) : Binary64 :=
  make false (nearest (num * unitsPerOne) den)

def add (x y : Binary64) : Binary64 :=
  if x.isNaN then x.quiet
  else if y.isNaN then y.quiet
  else if x.isInf then if y.isInf && x.negative != y.negative then undefinedNaN else x
  else if y.isInf then y
  else ofUnits (x.negative && y.negative) (x.toUnits + y.toUnits)

def sub (x y : Binary64) : Binary64 :=
  if x.isNaN then x.quiet
  else if y.isNaN then y.quiet
  else x.add y.neg

def mul (x y : Binary64) : Binary64 :=
  let s := x.negative != y.negative
  if x.isNaN then x.quiet
  else if y.isNaN then y.quiet
  else if x.isInf || y.isInf then
    if x.isZero || y.isZero then undefinedNaN else infinity s
  else make s (nearest (units x.magnitude * units y.magnitude) unitsPerOne)

def div (x y : Binary64) : Binary64 :=
  let s := x.negative != y.negative
  if x.isNaN then x.quiet
  else if y.isNaN then y.quiet
  else if x.isInf then if y.isInf then undefinedNaN else infinity s
  else if y.isInf then make s 0
  else if y.isZero then if x.isZero then undefinedNaN else infinity s
  else make s (nearest (units x.magnitude * unitsPerOne) (units y.magnitude))

/-- Remainder of the division that truncates: it has the sign of the dividend. -/
def rem (x y : Binary64) : Binary64 :=
  if x.isNaN then x.quiet
  else if y.isNaN then y.quiet
  else if x.isInf || y.isZero then undefinedNaN
  else if y.isInf then x
  else make x.negative (nearest (units x.magnitude % units y.magnitude) 1)

instance : Neg Binary64 := ⟨neg⟩
instance : Add Binary64 := ⟨add⟩
instance : Sub Binary64 := ⟨sub⟩
instance : Mul Binary64 := ⟨mul⟩
instance : Div Binary64 := ⟨div⟩
instance : Mod Binary64 := ⟨rem⟩

def rank (x : Binary64) : Int :=
  if x.negative then -(x.magnitude : Int) else x.magnitude

def compare? (x y : Binary64) : Option Ordering :=
  if x.isNaN || y.isNaN then none else some (compare x.rank y.rank)

/-- Numeric equality: zeros of both signs are equal and a NaN equals nothing. -/
def numEq (x y : Binary64) : Bool := x.compare? y == some .eq

def numLt (x y : Binary64) : Bool := x.compare? y == some .lt

def numLe (x y : Binary64) : Bool := x.numLt y || x.numEq y

/-- Orders all bit patterns: negative NaNs, numbers with -0 below +0, positive NaNs. -/
def totalRank (x : Binary64) : Int :=
  if x.negative then -(x.magnitude : Int) - 1 else x.magnitude

def totalCompare (x y : Binary64) : Ordering := compare x.totalRank y.totalRank

def mapSize (f : Nat → Nat) (x : Binary64) : Binary64 :=
  if x.isFinite then make x.negative (nearest (f (units x.magnitude) * unitsPerOne) 1) else x

def floorSize (u : Nat) : Nat := u / unitsPerOne
def ceilSize (u : Nat) : Nat := (u + unitsPerOne - 1) / unitsPerOne

def floor (x : Binary64) : Binary64 := mapSize (if x.negative then ceilSize else floorSize) x

def ceil (x : Binary64) : Binary64 := mapSize (if x.negative then floorSize else ceilSize) x

/-- To the nearest whole number, a half away from zero. It adds a half and cuts off what is behind
the point, so that a NaN leaves it as it leaves an addition. -/
def round (x : Binary64) : Binary64 :=
  if x.isNaN then x.quiet
  else mapSize (fun u => (2 * u + unitsPerOne) / (2 * unitsPerOne)) x

def isWhole (x : Binary64) : Bool := x.isFinite && units x.magnitude % unitsPerOne == 0

/-- The whole number toward zero, brought into `lo .. hi`; a NaN gives zero. -/
def clampTo (lo hi : Int) (x : Binary64) : Int :=
  if x.isNaN then 0
  else if x.isInf then if x.negative then lo else hi
  else
    let n : Int := floorSize (units x.magnitude)
    max lo (min hi (if x.negative then -n else n))

def toInt64Clamped (x : Binary64) : Int64 :=
  Int64.ofInt (x.clampTo (-2 ^ 63) (2 ^ 63 - 1))

def toUInt64Clamped (x : Binary64) : UInt64 :=
  UInt64.ofNat (x.clampTo 0 (2 ^ 64 - 1)).toNat

end Binary64

end RuleSim
