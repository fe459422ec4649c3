import RuleSim.Entity
import RuleSim.Json
import RuleSim.Number.Decimal
import RuleSim.Text.Quoted

namespace RuleSim

inductive Value where
  | null
  | bool (b : Bool)
  | int (n : Int64)
  | float (x : Binary64)
  | str (s : String)
  | entity (e : EntityId)
  | list (items : List Value)
  | map (entries : List (String × Value))
deriving Inhabited

namespace Value

mutual

def beq : Value → Value → Bool
  | null, null => true
  | bool a, bool b => a == b
  | int a, int b => a == b
  | float a, float b => a == b
  | str a, str b => a == b
  | entity a, entity b => a == b
  | list a, list b => beqItems a b
  | map a, map b => beqEntries a b
  | _, _ => false

def beqItems : List Value → List Value → Bool
  | [], [] => true
  | a :: as, b :: bs => beq a b && beqItems as bs
  | _, _ => false

def beqEntries : List (String × Value) → List (String × Value) → Bool
  | [], [] => true
  | (k, a) :: as, (l, b) :: bs => k == l && beq a b && beqEntries as bs
  | _, _ => false

end

mutual

theorem beq_iff : ∀ a b : Value, beq a b = true ↔ a = b
  | null, b => by cases b <;> simp [beq]
  | bool _, b => by cases b <;> simp [beq]
  | int _, b => by cases b <;> simp [beq]
  | float _, b => by cases b <;> simp [beq]
  | str _, b => by cases b <;> simp [beq]
  | entity _, b => by cases b <;> simp [beq]
  | list as, b => by cases b <;> simp [beq, beqItems_iff as]
  | map as, b => by cases b <;> simp [beq, beqEntries_iff as]

theorem beqItems_iff : ∀ as bs : List Value, beqItems as bs = true ↔ as = bs
  | [], bs => by cases bs <;> simp [beqItems]
  | a :: as, bs => by cases bs <;> simp [beqItems, beq_iff a, beqItems_iff as]

theorem beqEntries_iff : ∀ as bs : List (String × Value), beqEntries as bs = true ↔ as = bs
  | [], bs => by cases bs <;> simp [beqEntries]
  | (k, a) :: as, bs => by
    cases bs <;> simp [beqEntries, beq_iff a, beqEntries_iff as, Prod.ext_iff]

end

instance : DecidableEq Value := fun a b => decidable_of_iff _ (beq_iff a b)

def typeName : Value → String
  | null => "null"
  | bool _ => "boolean"
  | int _ => "integer"
  | float _ => "float"
  | str _ => "string"
  | entity _ => "entity"
  | list _ => "list"
  | map _ => "map"

def isNull : Value → Bool
  | null => true
  | _ => false

/-- Null, false, zero, NaN and the empty text do not count as true. -/
def truthy : Value → Bool
  | null => false
  | bool b => b
  | int n => n != 0
  | float x => !x.isZero && !x.isNaN
  | str s => s != ""
  | entity _ | list _ | map _ => true

def asBool? : Value → Option Bool
  | bool b => some b
  | _ => none

def asInt? : Value → Option Int64
  | int n => some n
  | _ => none

def asNumber? : Value → Option Binary64
  | int n => some (Binary64.ofInt n.toInt)
  | float x => some x
  | _ => none

def asStr? : Value → Option String
  | str s => some s
  | _ => none

/-- A binary number that is an entity number: whole and not negative. -/
def entityOfFloat? (x : Binary64) : Option EntityId :=
  if Binary64.zero.numLe x && x.isWhole then some ⟨x.toUInt64Clamped⟩ else none

def asEntity? : Value → Option EntityId
  | entity e => some e
  | int n => if 0 ≤ n.toInt then some (.ofNat n.toInt.toNat) else none
  | float x => entityOfFloat? x
  | _ => none

def asList? : Value → Option (List Value)
  | list items => some items
  | _ => none

def asMap? : Value → Option (List (String × Value))
  | map entries => some entries
  | _ => none

def isNumber : Value → Bool
  | int _ | float _ => true
  | _ => false

def looseEqScalar (a b : Value) : Bool :=
  if a.isNumber && b.isNumber then
    match a.asNumber?, b.asNumber? with
    | some x, some y => x.numEq y
    | _, _ => false
  else
    match a, b with
    | entity e, b => if b.isNumber then b.asEntity? == some e else b == entity e
    | a, entity e => if a.isNumber then a.asEntity? == some e else a == entity e
    | a, b => a == b

mutual

/-- Equality as rules see it: numbers by size, references also by number, lists item by item. -/
def looseEq : Value → Value → Bool
  | list as, list bs => looseEqItems as bs
  | a, b => looseEqScalar a b

def looseEqItems : List Value → List Value → Bool
  | [], [] => true
  | a :: as, b :: bs => looseEq a b && looseEqItems as bs
  | _, _ => false

end

/-- Order of scalars of one kind; two whole numbers compare exactly, mixed numbers in binary. -/
def compare? : Value → Value → Option Ordering
  | null, null => some .eq
  | bool a, bool b => some (compare a b)
  | int a, int b => some (compare a.toInt b.toInt)
  | float x, float y => x.compare? y
  | int a, float y => (Binary64.ofInt a.toInt).compare? y
  | float x, int b => x.compare? (Binary64.ofInt b.toInt)
  | str a, str b => some (compare a b)
  | entity a, entity b => some (compare a.toNat b.toNat)
  | _, _ => none

mutual

def text : Value → String
  | null => "null"
  | bool b => if b then "true" else "false"
  | int n => toString n.toInt
  | float x => Layout.plain.text x
  | str s => s
  | entity e => e.text
  | list items => "[" ++ ", ".intercalate (textItems items) ++ "]"
  | map entries => "\x7b" ++ ", ".intercalate (textEntries entries) ++ "\x7d"

def textItems : List Value → List String
  | [] => []
  | v :: vs => text v :: textItems vs

def textEntries : List (String × Value) → List String
  | [] => []
  | (k, v) :: rest => (k ++ ": " ++ text v) :: textEntries rest

end

mutual

/-- Text that shows the kind of every part: strings are quoted, binary numbers have a point. -/
def inspect : Value → String
  | null => "null"
  | bool b => if b then "true" else "false"
  | int n => toString n.toInt
  | float x => Layout.debug.text x
  | str s => Text.quoted s
  | entity e => e.inspect
  | list items => "[" ++ ", ".intercalate (inspectItems items) ++ "]"
  | map entries => "\x7b" ++ ", ".intercalate (inspectEntries entries) ++ "\x7d"

def inspectItems : List Value → List String
  | [] => []
  | v :: vs => inspect v :: inspectItems vs

def inspectEntries : List (String × Value) → List String
  | [] => []
  | (k, v) :: rest => (Text.quoted k ++ ": " ++ inspect v) :: inspectEntries rest

end

def entityKey : String := "$entity"

/-- A one-entry map under `$entity` stands for a reference. -/
def ofEntries (entries : List (String × Value)) : Value :=
  match entries with
  | [(k, v)] =>
    if k = entityKey then
      match v.asEntity? with
      | some e => entity e
      | none => map entries
    else map entries
  | _ => map entries

def ofInt (n : Int) : Value :=
  if -2 ^ 63 ≤ n ∧ n < 2 ^ 63 then int (Int64.ofInt n) else float (Binary64.ofInt n)

mutual

def ofJson : Json → Value
  | .null => null
  | .bool b => bool b
  | .int n => ofInt n
  | .float x => float x
  | .str s => str s
  | .arr items => list (ofJsonItems items)
  | .obj entries => ofEntries (ofJsonEntries entries)

def ofJsonItems : List Json → List Value
  | [] => []
  | v :: vs => ofJson v :: ofJsonItems vs

def ofJsonEntries : List (String × Json) → List (String × Value)
  | [] => []
  | (k, v) :: rest => (k, ofJson v) :: ofJsonEntries rest

end

mutual

def toJson : Value → Json
  | null => .null
  | bool b => .bool b
  | int n => .int n.toInt
  | float x => .float x
  | str s => .str s
  | entity e => .obj [(entityKey, .int e.toNat)]
  | list items => .arr (toJsonItems items)
  | map entries => .obj (toJsonEntries entries)

def toJsonItems : List Value → List Json
  | [] => []
  | v :: vs => toJson v :: toJsonItems vs

def toJsonEntries : List (String × Value) → List (String × Json)
  | [] => []
  | (k, v) :: rest => (k, toJson v) :: toJsonEntries rest

end

end Value

end RuleSim
