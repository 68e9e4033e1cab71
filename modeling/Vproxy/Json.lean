-- JSON as package encoding/json reads it. A machine goes over the text one character at a
-- time, with a stack of the arrays and objects that are open. A byte beyond ASCII stands for
-- the character of its code.
import Vproxy.NetAddr

open go go.net

namespace go.json

/-! ## Values and the machine -/

/-- A value. A number is the text it was written as. -/
inductive Value where
  | null
  | bool (b : Bool)
  | num (literal : Str)
  | str (s : Str)
  | arr (items : List Value)
  | obj (members : List (Str × Value))

/-- An open array or object, with what it has so far. The key of an object is the one whose
value comes next. -/
inductive Frame where
  | arr (items : List Value)
  | obj (members : List (Str × Value)) (key : Str)

inductive StrState where
  | plain
  | escape
  /-- This many hex digits are to come. -/
  | hex (n : Nat)
  deriving DecidableEq

inductive NumState where
  | neg
  | zero
  | int
  | dot
  | frac
  | exp
  | expSign
  | expDigits
  deriving DecidableEq

/-- What the machine is reading. Texts that are under way are reversed. -/
inductive Mode where
  | value
  /-- After the bracket of an array. -/
  | firstItem
  /-- After the brace of an object. -/
  | firstKey
  | key
  | colon
  /-- After a value in an array or object. -/
  | next
  | string (isKey : Bool) (st : StrState) (raw : Str)
  | number (st : NumState) (literal : Str)
  | literal (rest : Str) (v : Value)
  | done (v : Value)
  | error

structure Scanner where
  mode : Mode
  stack : List Frame

def Scanner.start : Scanner := ⟨.value, []⟩

def Scanner.fail (s : Scanner) : Scanner := { s with mode := .error }

/-- `maxNestingDepth`. -/
def maxNestingDepth : Nat := 10000

def Scanner.push (s : Scanner) (f : Frame) (mode : Mode) : Scanner :=
  if s.stack.length < maxNestingDepth then ⟨mode, f :: s.stack⟩ else s.fail

/-! ## Strings -/

def isSpace (c : Char) : Bool := c == ' ' || c == '\t' || c == '\r' || c == '\n'

def StrState.step : StrState → Char → Option StrState
  | .plain, c => if c = '\\' then some .escape else if c.toNat < 0x20 then none else some .plain
  | .escape, c =>
    if c = 'u' then some (.hex 4)
    else if ("bfnrt\\/\"" : Str).contains c then some .plain
    else none
  | .hex 0, _ => none
  | .hex 1, c => if isHex c then some .plain else none
  | .hex (n + 1), c => if isHex c then some (.hex n) else none

def escaped (c : Char) : Char :=
  if c = 'b' then '\x08'
  else if c = 'f' then '\x0c'
  else if c = 'n' then '\n'
  else if c = 'r' then '\r'
  else if c = 't' then '\t'
  else c

/-- The character of the code, and the replacement character for half of a surrogate pair. -/
def rune (code : Nat) : Char := if 0xd800 ≤ code ∧ code < 0xe000 then '\ufffd' else Char.ofNat code

/-- A part of a string: a character, or a code unit that is written as `\uXXXX`. -/
inductive Piece where
  | char (c : Char)
  | unit (code : Nat)

def pieces : Str → List Piece
  | [] => []
  | '\\' :: 'u' :: a :: b :: c :: d :: rest => .unit (hexNum [a, b, c, d]) :: pieces rest
  | '\\' :: c :: rest => .char (escaped c) :: pieces rest
  | c :: rest => .char c :: pieces rest

/-- The first half of a surrogate pair waits for the second half. -/
def join : Option Nat → List Piece → Str
  | first, [] => first.toList.map rune
  | first, .char c :: rest => first.toList.map rune ++ c :: join none rest
  | some hi, .unit lo :: rest =>
    if 0xdc00 ≤ lo ∧ lo < 0xe000 then
      Char.ofNat (0x10000 + (hi - 0xd800) * 0x400 + (lo - 0xdc00)) :: join none rest
    else if 0xd800 ≤ lo ∧ lo < 0xdc00 then rune hi :: join (some lo) rest
    else rune hi :: rune lo :: join none rest
  | none, .unit code :: rest =>
    if 0xd800 ≤ code ∧ code < 0xdc00 then join (some code) rest else rune code :: join none rest

/-- The text that a string stands for, from its text between the quotes. -/
def unquote (raw : Str) : Str := join none (pieces raw)

/-! ## Numbers -/

def NumState.step : NumState → Char → Option NumState
  | .neg, c => if c = '0' then some .zero else if isDigit c then some .int else none
  | .zero, c =>
    if c = '.' then some .dot else if c = 'e' ∨ c = 'E' then some .exp else none
  | .int, c =>
    if isDigit c then some .int
    else if c = '.' then some .dot
    else if c = 'e' ∨ c = 'E' then some .exp
    else none
  | .dot, c => if isDigit c then some .frac else none
  | .frac, c =>
    if isDigit c then some .frac else if c = 'e' ∨ c = 'E' then some .exp else none
  | .exp, c =>
    if c = '+' ∨ c = '-' then some .expSign else if isDigit c then some .expDigits else none
  | .expSign, c | .expDigits, c => if isDigit c then some .expDigits else none

/-- The number may end here. -/
def NumState.accepts : NumState → Bool
  | .zero | .int | .frac | .expDigits => true
  | _ => false

/-! ## Steps -/

/-- A value is complete. -/
def Scanner.finish (s : Scanner) (v : Value) : Scanner :=
  match s.stack with
  | [] => ⟨.done v, []⟩
  | .arr items :: rest => ⟨.next, .arr (items ++ [v]) :: rest⟩
  | .obj members key :: rest => ⟨.next, .obj (members ++ [(key, v)]) [] :: rest⟩

def Scanner.beginValue (s : Scanner) (c : Char) : Scanner :=
  if isSpace c then s
  else if c = '\x7b' then s.push (.obj [] []) .firstKey
  else if c = '[' then s.push (.arr []) .firstItem
  else if c = '"' then { s with mode := .string false .plain [] }
  else if c = '-' then { s with mode := .number .neg [c] }
  else if c = '0' then { s with mode := .number .zero [c] }
  else if isDigit c then { s with mode := .number .int [c] }
  else if c = 't' then { s with mode := .literal "rue" (.bool true) }
  else if c = 'f' then { s with mode := .literal "alse" (.bool false) }
  else if c = 'n' then { s with mode := .literal "ull" .null }
  else s.fail

def Scanner.beginKey (s : Scanner) (c : Char) : Scanner :=
  if isSpace c then s
  else if c = '"' then { s with mode := .string true .plain [] }
  else s.fail

/-- A comma or the end of an array or object. -/
def Scanner.afterValue (s : Scanner) (c : Char) : Scanner :=
  if isSpace c then s
  else
    match s.stack with
    | .arr items :: rest =>
      if c = ',' then { s with mode := .value }
      else if c = ']' then (⟨.next, rest⟩ : Scanner).finish (.arr items)
      else s.fail
    | .obj members _ :: rest =>
      if c = ',' then { s with mode := .key }
      else if c = '\x7d' then (⟨.next, rest⟩ : Scanner).finish (.obj members)
      else s.fail
    | [] => s.fail

/-- The end of a key. -/
def Scanner.setKey (s : Scanner) (key : Str) : Scanner :=
  match s.stack with
  | .obj members _ :: rest => ⟨.colon, .obj members key :: rest⟩
  | _ => s.fail

def Scanner.step (s : Scanner) (c : Char) : Scanner :=
  match s.mode with
  | .value => s.beginValue c
  | .firstItem => if c = ']' then s.afterValue c else s.beginValue c
  | .firstKey => if c = '\x7d' then s.afterValue c else s.beginKey c
  | .key => s.beginKey c
  | .colon => if isSpace c then s else if c = ':' then { s with mode := .value } else s.fail
  | .next => s.afterValue c
  | .string isKey st raw =>
    if st = .plain ∧ c = '"' then
      if isKey then s.setKey (unquote raw.reverse) else s.finish (.str (unquote raw.reverse))
    else
      match st.step c with
      | some st' => { s with mode := .string isKey st' (c :: raw) }
      | none => s.fail
  | .number st literal =>
    match st.step c with
    | some st' => { s with mode := .number st' (c :: literal) }
    | none =>
      if st.accepts then
        match s.stack with
        | [] => s.finish (.num literal.reverse)
        | _ => (s.finish (.num literal.reverse)).afterValue c
      else s.fail
  | .literal rest v =>
    match rest with
    | [d] => if c = d then s.finish v else s.fail
    | d :: more => if c = d then { s with mode := .literal more v } else s.fail
    | [] => s.fail
  | .done _ => s
  | .error => s

def Scanner.run (s : Scanner) (text : Str) : Scanner := text.foldl Scanner.step s

/-- The first value of a text that ends; what stands after the value is left. -/
def decode (text : Str) : Option Value :=
  match (Scanner.start.run text).mode with
  | .done v => some v
  | .number st literal =>
    if st.accepts ∧ (Scanner.start.run text).stack.isEmpty then some (.num literal.reverse) else none
  | _ => none

/-! ## Runs -/

theorem run_append (s : Scanner) (a b : Str) : s.run (a ++ b) = (s.run a).run b :=
  List.foldl_append

end go.json
