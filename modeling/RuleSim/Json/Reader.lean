import RuleSim.Json.Form

namespace RuleSim.Json

namespace Form

def maxDepth : Nat := 127

def isHighCode (n : Nat) : Bool := 0xD800 ≤ n && n < 0xDC00

def isLowCode (n : Nat) : Bool := 0xDC00 ≤ n && n < 0xE000

/-- The characters of a string. Two codes make a character if they are the halves of a pair; a half
may not stand alone. -/
def chars? : List Piece → Option (List Char)
  | [] => some []
  | .char c :: rest => (chars? rest).map (c :: ·)
  | .code n :: .code m :: rest =>
    if isHighCode n then
      if isLowCode m then
        (chars? rest).map (Char.ofNat (0x10000 + (n - 0xD800) * 0x400 + (m - 0xDC00)) :: ·)
      else none
    else if isLowCode n then none
    else (chars? (.code m :: rest)).map (Char.ofNat n :: ·)
  | .code n :: rest =>
    if isHighCode n || isLowCode n then none else (chars? rest).map (Char.ofNat n :: ·)

def text? (pieces : List Piece) : Option String := (chars? pieces).map String.ofList

mutual

/-- The tree of a form inside arrays and objects that leave `depth` more levels. All entries of
objects are kept as they are written. -/
def tree? (depth : Nat) : Form → Option Json
  | null => some .null
  | bool b => some (.bool b)
  | number t => t.leaf?
  | string pieces => (text? pieces).map .str
  | arr items => if depth = 0 then none else (items? (depth - 1) items).map .arr
  | obj entries => if depth = 0 then none else (entries? (depth - 1) entries).map .obj

def items? (depth : Nat) : List Form → Option (List Json)
  | [] => some []
  | f :: fs => do
    let j ← tree? depth f
    return j :: (← items? depth fs)

def entries? (depth : Nat) : List (List Piece × Form) → Option (List (String × Json))
  | [] => some []
  | (k, f) :: rest => do
    let k ← text? k
    let j ← tree? depth f
    return (k, j) :: (← entries? depth rest)

end

end Form

mutual

def sorted : Json → Json
  | arr items => arr (sortedItems items)
  | obj entries => obj (Table.ofList (sortedEntries entries))
  | j => j

def sortedItems : List Json → List Json
  | [] => []
  | j :: js => sorted j :: sortedItems js

def sortedEntries : List (String × Json) → List (String × Json)
  | [] => []
  | (k, j) :: es => (k, sorted j) :: sortedEntries es

end

def parse? (text : String) : Option Json :=
  ((Form.ofText? text).bind (Form.tree? Form.maxDepth)).map sorted

end RuleSim.Json
