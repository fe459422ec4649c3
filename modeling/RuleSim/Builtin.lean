import RuleSim.Operator
import RuleSim.Random

namespace RuleSim

inductive Builtin where
  | min
  | max
  | abs
  | floor
  | ceil
  | round
  | random
  | randomRange
  | len
  | list
  | get
deriving DecidableEq

namespace Builtin

def name : Builtin → String
  | min => "min"
  | max => "max"
  | abs => "abs"
  | floor => "floor"
  | ceil => "ceil"
  | round => "round"
  | random => "random"
  | randomRange => "random_range"
  | len => "len"
  | list => "list"
  | get => "get"

def all : List Builtin :=
  [min, max, abs, floor, ceil, round, random, randomRange, len, list, get]

def ofName? (s : String) : Option Builtin := all.find? fun f => f.name = s

def notNumber (v : Value) : Error.Kind := .typeMismatch "number" v.typeName

def wrongArity (f : Builtin) (expected : String) (actual : Nat) : Error.Kind :=
  .arityMismatch f.name expected actual

/-- The best item so far stays unless the next one compares as wanted against it. -/
def extremumFrom (wanted : Ordering) (best : Value) : List Value → Value.Result
  | [] => .ok best
  | v :: vs =>
    if v.isNumber then
      extremumFrom wanted (if v.compare? best = some wanted then v else best) vs
    else .error (notNumber v)

/-- The extremum of the arguments, or of the items of a single list. It is returned unchanged. -/
def extremum (f : Builtin) (wanted : Ordering) (args : List Value) : Value.Result :=
  let items := match args with
    | [.list items] => items
    | args => args
  match items with
  | [] => .error (wrongArity f "at least 1" 0)
  | v :: vs => if v.isNumber then extremumFrom wanted v vs else .error (notNumber v)

def absolute (v : Value) : Value.Result :=
  match v with
  | .null => .ok .null
  | .int n =>
    let m : Int := n.toInt.natAbs
    .ok (if Value.fits m then .int (Int64.ofInt m) else .float (Binary64.ofInt n.toInt).abs)
  | .float x => .ok (.float x.abs)
  | v => .error (notNumber v)

/-- A rounded number becomes whole if its size is below 2 ^ 63. -/
def rounded (f : Binary64 → Binary64) (v : Value) : Value.Result :=
  match v with
  | .null => .ok .null
  | .int n => .ok (.int n)
  | .float x =>
    let y := f x
    .ok (if y.isFinite && y.abs.numLt (Binary64.ofInt (2 ^ 63)) then .int y.toInt64Clamped
      else .float y)
  | v => .error (notNumber v)

def length (v : Value) : Value.Result :=
  match v with
  | .null => .ok (.int 0)
  | .str s => .ok (.int (Int64.ofNat s.length))
  | .list items => .ok (.int (Int64.ofNat items.length))
  | .map entries => .ok (.int (Int64.ofNat entries.length))
  | v => .error (.typeMismatch "list, map or string" v.typeName)

def item (items : List Value) (x : Binary64) : Value :=
  if Binary64.zero.numLe x && x.isWhole then (items[x.toUInt64Clamped.toNat]?).getD .null else .null

/-- What is not there is null; an index that is not a whole number finds nothing. -/
def lookUp (container key : Value) : Value.Result :=
  match container, key with
  | .null, _ => .ok .null
  | .list items, key =>
    match key.asNumber? with
    | some x => .ok (item items x)
    | none => .error (.typeMismatch "list index" key.typeName)
  | .map entries, .str k => .ok ((Table.find? entries k).getD .null)
  | .map _, key => .error (.typeMismatch "string key" key.typeName)
  | container, _ => .error (.typeMismatch "list or map" container.typeName)

/-- A draw between two numbers in either order. Whole numbers include both ends; between binary
numbers without a finite gap nothing is drawn. -/
def between (a b : Value) (r : Random) : Except Error.Kind (Value × Random) :=
  match a, b with
  | .int m, .int n =>
    let (lo, hi) := if m ≤ n then (m, n) else (n, m)
    let (k, r) := r.intBetween lo hi
    .ok (.int k, r)
  | a, b =>
    match a.asNumber?, b.asNumber? with
    | some x, some y =>
      let (lo, hi) := if x.numLe y then (x, y) else (y, x)
      if lo.numLt hi && (hi - lo).isFinite then
        let (z, r) := r.floatBetween lo hi
        .ok (.float z, r)
      else .ok (.float lo, r)
    | _, _ => .error (.typeMismatch "two numbers" (a.typeName ++ " and " ++ b.typeName))

def callPure (f : Builtin) (args : List Value) : Value.Result :=
  match f, args with
  | min, args => extremum min .lt args
  | max, args => extremum max .gt args
  | abs, [v] => absolute v
  | floor, [v] => rounded Binary64.floor v
  | ceil, [v] => rounded Binary64.ceil v
  | round, [v] => rounded Binary64.round v
  | len, [v] => length v
  | list, args => .ok (.list args)
  | get, [c, k] => lookUp c k
  | random, args => .error (wrongArity random "0" args.length)
  | randomRange, args => .error (wrongArity randomRange "2" args.length)
  | get, args => .error (wrongArity get "2" args.length)
  | f, args => .error (wrongArity f "1" args.length)

def call (f : Builtin) (args : List Value) (r : Random) : Except Error.Kind (Value × Random) :=
  match f, args with
  | random, [] =>
    let (x, r) := r.unit
    .ok (.float x, r)
  | randomRange, [a, b] => between a b r
  | f, args => (callPure f args).map (·, r)

end Builtin

end RuleSim
