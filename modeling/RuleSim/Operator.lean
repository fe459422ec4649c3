import RuleSim.Error

namespace RuleSim

inductive BinaryOp where
  | add
  | subtract
  | multiply
  | divide
  | modulo
  | eq
  | neq
  | lt
  | lte
  | gt
  | gte
  | and
  | or
deriving DecidableEq, Inhabited

namespace BinaryOp

def name : BinaryOp → String
  | add => "add"
  | subtract => "subtract"
  | multiply => "multiply"
  | divide => "divide"
  | modulo => "modulo"
  | eq => "eq"
  | neq => "neq"
  | lt => "lt"
  | lte => "lte"
  | gt => "gt"
  | gte => "gte"
  | and => "and"
  | or => "or"

def symbol : BinaryOp → String
  | add => "+"
  | subtract => "-"
  | multiply => "*"
  | divide => "/"
  | modulo => "%"
  | eq => "=="
  | neq => "!="
  | lt => "<"
  | lte => "<="
  | gt => ">"
  | gte => ">="
  | and => "&&"
  | or => "||"

def all : List BinaryOp :=
  [add, subtract, multiply, divide, modulo, eq, neq, lt, lte, gt, gte, and, or]

def ofName? (s : String) : Option BinaryOp :=
  all.find? fun op => s = op.name || s = op.symbol

end BinaryOp

inductive UnaryOp where
  | negate
  | not
deriving DecidableEq, Inhabited

namespace UnaryOp

def name : UnaryOp → String
  | negate => "negate"
  | not => "not"

def ofName? (s : String) : Option UnaryOp :=
  match s with
  | "negate" | "-" | "neg" => some negate
  | "not" | "!" => some not
  | _ => none

end UnaryOp

namespace Value

abbrev Result := Except Error.Kind Value

def operandMismatch (op : BinaryOp) (a b : Value) : Error.Kind :=
  .typeMismatch ("operands for `" ++ op.symbol ++ "`") (a.typeName ++ " and " ++ b.typeName)

def floatArithmetic (op : BinaryOp) (x y : Binary64) : Result :=
  match op with
  | .add => .ok (float (x + y))
  | .subtract => .ok (float (x - y))
  | .multiply => .ok (float (x * y))
  | .divide => if y.isZero then .error .divisionByZero else .ok (float (x / y))
  | .modulo => if y.isZero then .error .divisionByZero else .ok (float (x % y))
  | op => .error (.internal (op.symbol ++ " is not arithmetic"))

def fits (n : Int) : Bool := -2 ^ 63 ≤ n && n < 2 ^ 63

def widened (op : BinaryOp) (a b : Int64) : Result :=
  floatArithmetic op (Binary64.ofInt a.toInt) (Binary64.ofInt b.toInt)

/-- The exact result `n` if it fits, else the result in binary. -/
def exactly (op : BinaryOp) (a b : Int64) (n : Int) : Result :=
  if fits n then .ok (int (Int64.ofInt n)) else widened op a b

def intArithmetic (op : BinaryOp) (a b : Int64) : Result :=
  match op with
  | .add => exactly op a b (a.toInt + b.toInt)
  | .subtract => exactly op a b (a.toInt - b.toInt)
  | .multiply => exactly op a b (a.toInt * b.toInt)
  | .divide =>
    if b = 0 then .error .divisionByZero
    else if a.toInt.tmod b.toInt = 0 then exactly op a b (a.toInt.tdiv b.toInt)
    else widened op a b
  | .modulo =>
    if b = 0 then .error .divisionByZero
    else .ok (int (Int64.ofInt (a.toInt.tmod b.toInt)))
  | op => .error (.internal (op.symbol ++ " is not arithmetic"))

def floatOperands (op : BinaryOp) (a b : Value) : Result :=
  match a.asNumber?, b.asNumber? with
  | some x, some y => floatArithmetic op x y
  | _, _ => .error (operandMismatch op a b)

/-- Adding joins texts, with any other operand as text, and lists. -/
def arithmetic (op : BinaryOp) (a b : Value) : Result :=
  match a, b with
  | null, _ => .ok null
  | _, null => .ok null
  | int m, int n => intArithmetic op m n
  | str s, b => if op = .add then .ok (str (s ++ b.text)) else floatOperands op (str s) b
  | a, str s => if op = .add then .ok (str (a.text ++ s)) else floatOperands op a (str s)
  | list xs, list ys => if op = .add then .ok (list (xs ++ ys)) else floatOperands op a b
  | a, b => floatOperands op a b

def orderHolds (op : BinaryOp) (o : Ordering) : Bool :=
  match op with
  | .lt => o == .lt
  | .lte => o != .gt
  | .gt => o == .gt
  | _ => o != .lt

/-- A NaN makes a comparison of numbers false; values of two kinds do not compare. -/
def comparison (op : BinaryOp) (a b : Value) : Result :=
  if a.isNull || b.isNull then .ok (bool false)
  else
    match a.compare? b with
    | some o => .ok (bool (orderHolds op o))
    | none =>
      if a.isNumber && b.isNumber then .ok (bool false)
      else .error (operandMismatch op a b)

def binary (op : BinaryOp) (a b : Value) : Result :=
  match op with
  | .add | .subtract | .multiply | .divide | .modulo => arithmetic op a b
  | .eq => .ok (bool (looseEq a b))
  | .neq => .ok (bool !(looseEq a b))
  | .lt | .lte | .gt | .gte => comparison op a b
  | .and => .ok (bool (a.truthy && b.truthy))
  | .or => .ok (bool (a.truthy || b.truthy))

def negate (v : Value) : Result :=
  match v with
  | null => .ok null
  | int n => .ok (if fits (-n.toInt) then int (-n) else float (-(Binary64.ofInt n.toInt)))
  | float x => .ok (float (-x))
  | v => .error (.typeMismatch "number" v.typeName)

end Value

end RuleSim
