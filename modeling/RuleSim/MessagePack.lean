import RuleSim.Json

namespace RuleSim

inductive Pack where
  | nil
  | bool (b : Bool)
  | nat (n : Nat)
  | int (n : Int)
  | float (x : Binary64)
  | str (s : String)
  /-- A string that is not UTF-8. -/
  | raw (bytes : List UInt8)
  | bin (bytes : List UInt8)
  | ext (kind : Nat) (bytes : List UInt8)
  | arr (items : List Pack)
  | map (entries : List (Pack × Pack))
deriving Inhabited

namespace Pack

abbrev Bytes := List UInt8

/-- The lowest `count` bytes of a number, the most significant first. -/
def bigEndian : (count : Nat) → Nat → Bytes
  | 0, _ => []
  | count + 1, n => (n / 256 ^ count).toUInt8 :: bigEndian count n

def ofBigEndian (bytes : Bytes) : Nat := bytes.foldl (fun n b => n * 256 + b.toNat) 0

def natBytes (n : Nat) : Bytes :=
  if n < 0x80 then [n.toUInt8]
  else if n < 2 ^ 8 then 0xCC :: bigEndian 1 n
  else if n < 2 ^ 16 then 0xCD :: bigEndian 2 n
  else if n < 2 ^ 32 then 0xCE :: bigEndian 4 n
  else 0xCF :: bigEndian 8 n

def negativeBytes (n : Int) : Bytes :=
  let wrapped (count : Nat) := bigEndian count (n + 256 ^ count).toNat
  if -32 ≤ n then wrapped 1
  else if -2 ^ 7 ≤ n then 0xD0 :: wrapped 1
  else if -2 ^ 15 ≤ n then 0xD1 :: wrapped 2
  else if -2 ^ 31 ≤ n then 0xD2 :: wrapped 4
  else 0xD3 :: wrapped 8

def intBytes (n : Int) : Bytes := if 0 ≤ n then natBytes n.toNat else negativeBytes n

def strBytes (data : Bytes) : Bytes :=
  let n := data.length
  (if n < 32 then [(0xA0 + n).toUInt8]
    else if n < 2 ^ 8 then 0xD9 :: bigEndian 1 n
    else if n < 2 ^ 16 then 0xDA :: bigEndian 2 n
    else 0xDB :: bigEndian 4 n) ++ data

def binBytes (data : Bytes) : Bytes :=
  let n := data.length
  (if n < 2 ^ 8 then 0xC4 :: bigEndian 1 n
    else if n < 2 ^ 16 then 0xC5 :: bigEndian 2 n
    else 0xC6 :: bigEndian 4 n) ++ data

def extBytes (kind : Nat) (data : Bytes) : Bytes :=
  0xC9 :: bigEndian 4 data.length ++ kind.toUInt8 :: data

def arrHeader (n : Nat) : Bytes :=
  if n < 16 then [(0x90 + n).toUInt8]
  else if n < 2 ^ 16 then 0xDC :: bigEndian 2 n
  else 0xDD :: bigEndian 4 n

def mapHeader (n : Nat) : Bytes :=
  if n < 16 then [(0x80 + n).toUInt8]
  else if n < 2 ^ 16 then 0xDE :: bigEndian 2 n
  else 0xDF :: bigEndian 4 n

mutual

def toBytes : Pack → Bytes
  | nil => [0xC0]
  | bool b => [if b then 0xC3 else 0xC2]
  | nat n => natBytes n
  | int n => intBytes n
  | float x => 0xCB :: bigEndian 8 x.bits.toNat
  | str s => strBytes s.toUTF8.toList
  | raw data => strBytes data
  | bin data => binBytes data
  | ext kind data => extBytes kind data
  | arr items => arrHeader items.length ++ itemsToBytes items
  | map entries => mapHeader entries.length ++ entriesToBytes entries

def itemsToBytes : List Pack → Bytes
  | [] => []
  | v :: vs => toBytes v ++ itemsToBytes vs

def entriesToBytes : List (Pack × Pack) → Bytes
  | [] => []
  | (k, v) :: rest => toBytes k ++ (toBytes v ++ entriesToBytes rest)

end

/-- The head of a value: all of it, or the number of parts that follow. -/
inductive Head where
  | whole (v : Pack)
  | items (n : Nat)
  | entries (n : Nat)

def readNat (n : Nat) (bytes : Bytes) : Option (Nat × Bytes) :=
  if n ≤ bytes.length then some (ofBigEndian (bytes.take n), bytes.drop n) else none

def readInt (n : Nat) (bytes : Bytes) : Option (Int × Bytes) :=
  (readNat n bytes).map fun (m, rest) => (if 2 * m < 256 ^ n then m else (m : Int) - 256 ^ n, rest)

def readData (n : Nat) (bytes : Bytes) : Option (Bytes × Bytes) :=
  if n ≤ bytes.length then some (bytes.take n, bytes.drop n) else none

def readStr (n : Nat) (bytes : Bytes) : Option (Head × Bytes) := do
  let (data, rest) ← readData n bytes
  match String.fromUTF8? ⟨data.toArray⟩ with
  | some s => return (.whole (str s), rest)
  | none => return (.whole (raw data), rest)

def readBin (n : Nat) (bytes : Bytes) : Option (Head × Bytes) := do
  let (data, rest) ← readData n bytes
  return (.whole (bin data), rest)

def readExt (n : Nat) (bytes : Bytes) : Option (Head × Bytes) := do
  let (kind, rest) ← readNat 1 bytes
  let (data, rest) ← readData n rest
  return (.whole (ext kind data), rest)

/-- A number in single precision, widened. A NaN leaves it as it leaves an operation. -/
def ofSingle (bits : Nat) : Binary64 :=
  let neg : Bool := 2 ^ 31 ≤ bits
  let mag := bits % 2 ^ 31
  let e := mag / 2 ^ 23
  let f := mag % 2 ^ 23
  if e = 255 then
    if f = 0 then Binary64.infinity neg
    else (Binary64.make neg (Binary64.infMagnitude + f * 2 ^ 29)).quiet
  else
    let size := if e = 0 then f else (2 ^ 23 + f) * 2 ^ (e - 1)
    Binary64.make neg (Binary64.nearest (size * 2 ^ 925) 1)

def withLength (n : Nat) (bytes : Bytes) (f : Nat → Bytes → Option (Head × Bytes)) :
    Option (Head × Bytes) :=
  (readNat n bytes).bind fun (m, rest) => f m rest

def readHead : Bytes → Option (Head × Bytes)
  | [] => none
  | b :: rest =>
    let n := b.toNat
    let whole (v : Pack) := some (Head.whole v, rest)
    let unsigned (count : Nat) :=
      (readNat count rest).map fun (m, rest) => (Head.whole (nat m), rest)
    let signed (count : Nat) := (readInt count rest).map fun (m, rest) => (Head.whole (int m), rest)
    if n < 0x80 then whole (nat n)
    else if n < 0x90 then some (.entries (n - 0x80), rest)
    else if n < 0xA0 then some (.items (n - 0x90), rest)
    else if n < 0xC0 then readStr (n - 0xA0) rest
    else if n ≥ 0xE0 then whole (int ((n : Int) - 256))
    else match n with
      | 0xC0 => whole nil
      | 0xC2 => whole (bool false)
      | 0xC3 => whole (bool true)
      | 0xC4 => withLength 1 rest readBin
      | 0xC5 => withLength 2 rest readBin
      | 0xC6 => withLength 4 rest readBin
      | 0xC7 => withLength 1 rest readExt
      | 0xC8 => withLength 2 rest readExt
      | 0xC9 => withLength 4 rest readExt
      | 0xCA => (readNat 4 rest).map fun (m, rest) => (Head.whole (float (ofSingle m)), rest)
      | 0xCB => (readNat 8 rest).map fun (m, rest) => (Head.whole (float ⟨m.toUInt64⟩), rest)
      | 0xCC => unsigned 1
      | 0xCD => unsigned 2
      | 0xCE => unsigned 4
      | 0xCF => unsigned 8
      | 0xD0 => signed 1
      | 0xD1 => signed 2
      | 0xD2 => signed 4
      | 0xD3 => signed 8
      | 0xD4 => readExt 1 rest
      | 0xD5 => readExt 2 rest
      | 0xD6 => readExt 4 rest
      | 0xD7 => readExt 8 rest
      | 0xD8 => readExt 16 rest
      | 0xD9 => withLength 1 rest readStr
      | 0xDA => withLength 2 rest readStr
      | 0xDB => withLength 4 rest readStr
      | 0xDC => (readNat 2 rest).map fun (m, rest) => (.items m, rest)
      | 0xDD => (readNat 4 rest).map fun (m, rest) => (.items m, rest)
      | 0xDE => (readNat 2 rest).map fun (m, rest) => (.entries m, rest)
      | 0xDF => (readNat 4 rest).map fun (m, rest) => (.entries m, rest)
      | _ => none

/-- Containers nest at most this deep; an extension counts as one. -/
def maxDepth : Nat := 1023

mutual

def read (depth : Nat) : (fuel : Nat) → Bytes → Option (Pack × Bytes)
  | 0, _ => none
  | fuel + 1, bytes =>
    match readHead bytes with
    | none => none
    | some (.whole (ext kind data), rest) => if depth = 0 then none else some (ext kind data, rest)
    | some (.whole v, rest) => some (v, rest)
    | some (.items n, rest) =>
      if depth = 0 then none
      else (readItems (depth - 1) n fuel rest).map fun (vs, rest) => (arr vs, rest)
    | some (.entries n, rest) =>
      if depth = 0 then none
      else (readEntries (depth - 1) n fuel rest).map fun (es, rest) => (map es, rest)

def readItems (depth n : Nat) : (fuel : Nat) → Bytes → Option (List Pack × Bytes)
  | 0, _ => none
  | fuel + 1, bytes =>
    if n = 0 then some ([], bytes)
    else do
      let (v, rest) ← read depth fuel bytes
      let (vs, rest) ← readItems depth (n - 1) fuel rest
      return (v :: vs, rest)

def readEntries (depth n : Nat) : (fuel : Nat) → Bytes → Option (List (Pack × Pack) × Bytes)
  | 0, _ => none
  | fuel + 1, bytes =>
    if n = 0 then some ([], bytes)
    else do
      let (k, rest) ← read depth fuel bytes
      let (v, rest) ← read depth fuel rest
      let (es, rest) ← readEntries depth (n - 1) fuel rest
      return ((k, v) :: es, rest)

end

/-- The first value of the bytes. Every head is at least one byte and every container adds one step,
so the fuel suffices. -/
def ofBytes? (bytes : Bytes) : Option Pack :=
  (read maxDepth (3 * bytes.length + 3) bytes).map (·.1)

def text? : Pack → Option String
  | str s => some s
  | bin data => String.fromUTF8? ⟨data.toArray⟩
  | _ => none

mutual

/-- A value as a document tree: no binary data, only texts as keys, of equal keys the last one, and
null for numbers that JSON cannot write. The first key of a map may not be binary data either. -/
def toJson? : Pack → Option Json
  | nil => some .null
  | bool b => some (.bool b)
  | nat n => some (.int n)
  | int n => some (.int n)
  | float x => some (if x.isFinite then .float x else .null)
  | str s => some (.str s)
  | raw _ => none
  | bin _ => none
  | ext _ _ => none
  | arr items => (itemsToJson? items).map .arr
  | map ((bin _, _) :: _) => none
  | map entries => (entriesToJson? entries).map fun es => .obj (Table.ofList es)

def itemsToJson? : List Pack → Option (List Json)
  | [] => some []
  | v :: vs => do
    let j ← toJson? v
    return j :: (← itemsToJson? vs)

def entriesToJson? : List (Pack × Pack) → Option (List (String × Json))
  | [] => some []
  | (k, v) :: rest => do
    let key ← text? k
    let j ← toJson? v
    return (key, j) :: (← entriesToJson? rest)

end

mutual

def ofJson : Json → Pack
  | .null => nil
  | .bool b => bool b
  | .int n => if 0 ≤ n then nat n.toNat else int n
  | .float x => float x
  | .str s => str s
  | .arr items => arr (ofJsonItems items)
  | .obj entries => map (ofJsonEntries entries)

def ofJsonItems : List Json → List Pack
  | [] => []
  | j :: js => ofJson j :: ofJsonItems js

def ofJsonEntries : List (String × Json) → List (Pack × Pack)
  | [] => []
  | (k, j) :: rest => (str k, ofJson j) :: ofJsonEntries rest

end

end Pack

end RuleSim
