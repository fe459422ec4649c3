import RuleSim.Number.Binary64

namespace RuleSim

/-- The stream of the ChaCha block function with eight rounds, read two words at a time. A source is
its seed and the count of draws made, so two sources with equal parts agree for ever. -/
structure Random where
  seed : UInt64
  drawn : Nat
deriving DecidableEq, Inhabited

namespace Random

abbrev Words := Vector UInt32 16

def rotateLeft (x : UInt32) (n : UInt32) : UInt32 := (x <<< n) ||| (x >>> (32 - n))

def quarter (s : Words) (a b c d : Fin 16) : Words :=
  let s := s.set a (s[a] + s[b])
  let s := s.set d (rotateLeft (s[d] ^^^ s[a]) 16)
  let s := s.set c (s[c] + s[d])
  let s := s.set b (rotateLeft (s[b] ^^^ s[c]) 12)
  let s := s.set a (s[a] + s[b])
  let s := s.set d (rotateLeft (s[d] ^^^ s[a]) 8)
  let s := s.set c (s[c] + s[d])
  s.set b (rotateLeft (s[b] ^^^ s[c]) 7)

def doubleRound (s : Words) : Words :=
  let s := quarter s 0 4 8 12
  let s := quarter s 1 5 9 13
  let s := quarter s 2 6 10 14
  let s := quarter s 3 7 11 15
  let s := quarter s 0 5 10 15
  let s := quarter s 1 6 11 12
  let s := quarter s 2 7 8 13
  quarter s 3 4 9 14

def seedStep (s : UInt64) : UInt64 := s * 6364136223846793005 + 11634580027462260723

def keyWord (s : UInt64) : UInt32 :=
  let x := (((s >>> 18) ^^^ s) >>> 27).toUInt32
  let r := (s >>> 59).toUInt32
  (x >>> r) ||| (x <<< ((32 - r) &&& 31))

def keyWords (seed : UInt64) : (count : Nat) → List UInt32
  | 0 => []
  | n + 1 => keyWord (seedStep seed) :: keyWords (seedStep seed) n

/-- The block with a given number: constants, key, number, and an empty stream number. -/
def input (seed : UInt64) (block : Nat) : Words :=
  let k := keyWords seed 8
  let key (i : Nat) := k.getD i 0
  #v[0x61707865, 0x3320646e, 0x79622d32, 0x6b206574, key 0, key 1, key 2, key 3,
    key 4, key 5, key 6, key 7, block.toUInt32, (block / 2 ^ 32).toUInt32, 0, 0]

def block (seed : UInt64) (n : Nat) : Words :=
  let s := input seed n
  Vector.zipWith (· + ·) (doubleRound (doubleRound (doubleRound (doubleRound s)))) s

def wordAt (seed : UInt64) (position : Nat) : UInt64 :=
  let b := block seed (position / 8)
  let i := 2 * (position % 8)
  (b.toArray.getD (i + 1) 0).toUInt64 <<< 32 ||| (b.toArray.getD i 0).toUInt64

def ofSeed (seed : UInt64) : Random := ⟨seed, 0⟩

def next (r : Random) : UInt64 × Random :=
  (wordAt r.seed r.drawn, { r with drawn := r.drawn + 1 })

def unit (r : Random) : Binary64 × Random :=
  let (w, r) := r.next
  (Binary64.ofRatio (w >>> 11).toNat (2 ^ 53), r)

/-- How often a draw is repeated. At least every second draw is accepted on average, so that many
refusals in a row do not occur. -/
def patience : Nat := 4096

/-- The high half of `v * range` for the first `v` whose low half is in the zone. -/
def scaledDraw (range zone : Nat) (r : Random) : (fuel : Nat) → Nat × Random
  | 0 => (0, r)
  | fuel + 1 =>
    let (v, r) := r.next
    let product := v.toNat * range
    if product % 2 ^ 64 ≤ zone then (product / 2 ^ 64, r) else scaledDraw range zone r fuel

def intBetween (lo hi : Int64) (r : Random) : Int64 × Random :=
  let range := (hi - lo + 1).toUInt64.toNat
  if range = 0 then
    let (v, r) := r.next
    (v.toInt64, r)
  else
    let zone := range * 2 ^ (63 - range.log2) - 1
    let (n, r) := scaledDraw range zone r patience
    (lo + Int64.ofNat n, r)

/-- `u * width + lo` for the first random `u` that keeps it below `hi`. -/
def floatDraw (lo hi width : Binary64) (r : Random) : (fuel : Nat) → Binary64 × Random
  | 0 => (lo, r)
  | fuel + 1 =>
    let (v, r) := r.next
    let u := Binary64.ofRatio (v >>> 12).toNat (2 ^ 52)
    let x := u * width + lo
    if x.numLt hi then (x, r) else floatDraw lo hi width r fuel

def floatBetween (lo hi : Binary64) (r : Random) : Binary64 × Random :=
  floatDraw lo hi (hi - lo) r patience

end Random

end RuleSim
