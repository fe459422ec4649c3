import RuleSim.Json.Number

namespace RuleSim.Json

inductive Piece where
  | char (c : Char)
  | code (n : Nat)

/-- A text without mistakes. Its numbers may be too large and its strings may hold codes that no
character has; its objects have all entries in the order of the text. -/
inductive Form where
  | null
  | bool (b : Bool)
  | number (text : NumberText)
  | string (pieces : List Piece)
  | arr (items : List Form)
  | obj (entries : List (List Piece × Form))
deriving Inhabited

/-- An open array or object, its items in reverse; an object with the key whose value is awaited. -/
inductive Frame where
  | array (items : List Form)
  | object (entries : List (List Piece × Form)) (key : List Piece)

inductive Expecting where
  | value
  | valueOrEnd
  | key
  | keyOrEnd
  | colon
  | commaOrEnd
  | nothing (result : Form)

/-- The part of a lexeme that has been read. Numbers and strings are kept in reverse. -/
inductive Lexeme where
  | none
  | word (rest : List Char) (meaning : Form)
  | number (text : List Char)
  | string (pieces : List Piece)
  | escape (pieces : List Piece)
  | code (pieces : List Piece) (digits : List Nat)

structure Machine where
  stack : List Frame
  expecting : Expecting
  lexeme : Lexeme

namespace Machine

def start : Machine := ⟨[], .value, .none⟩

def isBlank (c : Char) : Bool := c = ' ' || c = '\n' || c = '\t' || c = '\r'

def isNumberChar (c : Char) : Bool :=
  c.isDigit || c = '-' || c = '+' || c = '.' || c = 'e' || c = 'E'

def complete (stack : List Frame) (v : Form) : Machine :=
  match stack with
  | [] => ⟨[], .nothing v, .none⟩
  | .array items :: rest => ⟨.array (v :: items) :: rest, .commaOrEnd, .none⟩
  | .object entries key :: rest => ⟨.object ((key, v) :: entries) key :: rest, .commaOrEnd, .none⟩

def completeString (m : Machine) (pieces : List Piece) : Option Machine :=
  let s := pieces.reverse
  match m.expecting, m.stack with
  | .key, .object entries _ :: rest => some ⟨.object entries s :: rest, .colon, .none⟩
  | .keyOrEnd, .object entries _ :: rest => some ⟨.object entries s :: rest, .colon, .none⟩
  | .value, stack => some (complete stack (.string s))
  | .valueOrEnd, stack => some (complete stack (.string s))
  | _, _ => none

def opened (m : Machine) (frame : Frame) (expecting : Expecting) : Machine :=
  ⟨frame :: m.stack, expecting, .none⟩

def closed (m : Machine) : Option Machine :=
  match m.stack with
  | .array items :: rest => some (complete rest (.arr items.reverse))
  | .object entries _ :: rest => some (complete rest (.obj entries.reverse))
  | [] => none

def closes (frame : Frame) (c : Char) : Bool :=
  match frame with
  | .array _ => c = ']'
  | .object _ _ => c = '\x7d'

def startValue (m : Machine) (c : Char) : Option Machine :=
  if c = '[' then some (m.opened (.array []) .valueOrEnd)
  else if c = '\x7b' then some (m.opened (.object [] []) .keyOrEnd)
  else if c = '"' then some { m with lexeme := .string [] }
  else if c = 'n' then some { m with lexeme := .word ['u', 'l', 'l'] .null }
  else if c = 't' then some { m with lexeme := .word ['r', 'u', 'e'] (.bool true) }
  else if c = 'f' then some { m with lexeme := .word ['a', 'l', 's', 'e'] (.bool false) }
  else if c = '-' || c.isDigit then some { m with lexeme := .number [c] }
  else none

def punctuation (m : Machine) (c : Char) : Option Machine :=
  if isBlank c then some m
  else
    let ends := m.stack.head?.any (closes · c)
    match m.expecting with
    | .value => m.startValue c
    | .valueOrEnd => if ends then m.closed else m.startValue c
    | .key => if c = '"' then some { m with lexeme := .string [] } else none
    | .keyOrEnd =>
      if ends then m.closed
      else if c = '"' then some { m with lexeme := .string [] }
      else none
    | .colon => if c = ':' then some { m with expecting := .value } else none
    | .commaOrEnd =>
      if ends then m.closed
      else if c = ',' then
        match m.stack with
        | .array _ :: _ => some { m with expecting := .value }
        | _ => some { m with expecting := .key }
      else none
    | .nothing _ => none

def hexValue? (c : Char) : Option Nat :=
  if c.isDigit then some (c.toNat - '0'.toNat)
  else if 'a' ≤ c && c ≤ 'f' then some (c.toNat - 'a'.toNat + 10)
  else if 'A' ≤ c && c ≤ 'F' then some (c.toNat - 'A'.toNat + 10)
  else none

def fromDigits (digits : List Nat) : Nat := digits.foldl (fun n d => n * 16 + d) 0

def escaped? (c : Char) : Option Char :=
  match c with
  | '"' => some '"'
  | '\\' => some '\\'
  | '/' => some '/'
  | 'b' => some (Char.ofNat 8)
  | 'f' => some (Char.ofNat 12)
  | 'n' => some '\n'
  | 'r' => some '\r'
  | 't' => some '\t'
  | _ => none

def finishNumber (m : Machine) (text : List Char) : Option Machine :=
  (NumberText.ofChars? text.reverse).map fun t => complete m.stack (.number t)

def step (m : Machine) (c : Char) : Option Machine :=
  match m.lexeme with
  | .none => m.punctuation c
  | .word [] v => (complete m.stack v).punctuation c
  | .word (d :: rest) v =>
    if c = d then
      if rest = [] then some (complete m.stack v) else some { m with lexeme := .word rest v }
    else none
  | .number text =>
    if isNumberChar c then some { m with lexeme := .number (c :: text) }
    else (m.finishNumber text).bind (·.punctuation c)
  | .string pieces =>
    if c = '"' then m.completeString pieces
    else if c = '\\' then some { m with lexeme := .escape pieces }
    else if c.toNat < 0x20 then none
    else some { m with lexeme := .string (.char c :: pieces) }
  | .escape pieces =>
    if c = 'u' then some { m with lexeme := .code pieces [] }
    else (escaped? c).map fun e => { m with lexeme := .string (.char e :: pieces) }
  | .code pieces digits =>
    (hexValue? c).map fun d =>
      let digits := digits ++ [d]
      if digits.length < 4 then { m with lexeme := .code pieces digits }
      else { m with lexeme := .string (.code (fromDigits digits) :: pieces) }

def finish (m : Machine) : Option Form :=
  let m? := match m.lexeme with
    | .number text => m.finishNumber text
    | .none => some m
    | _ => none
  m?.bind fun m =>
    match m.expecting with
    | .nothing v => some v
    | _ => none

end Machine

def Form.ofText? (text : String) : Option Form :=
  (text.toList.foldlM Machine.step Machine.start).bind Machine.finish

end RuleSim.Json
