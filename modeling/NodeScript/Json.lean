import NodeScript.Decimal.Fraction
import NodeScript.OrderedMap
import NodeScript.Value.Basic

/-!
Reading documents from JSON text. Numbers without a fraction and an exponent are integers of any
size, the words for infinities and not-a-number are accepted, and a repeated key keeps its first
place and its last value. A text that is not JSON is refused with the place where reading stopped.
-/

namespace NodeScript.Json

inductive Reason
  | byteOrderMark
  | value
  | extraData
  | propertyName
  | colon
  | comma
  | unterminated
  | control
  | escape
  | unicodeEscape
  deriving DecidableEq, Repr

def Reason.message : Reason → String
  | byteOrderMark => "Unexpected UTF-8 BOM (decode using utf-8-sig)"
  | value => "Expecting value"
  | extraData => "Extra data"
  | propertyName => "Expecting property name enclosed in double quotes"
  | colon => "Expecting ':' delimiter"
  | comma => "Expecting ',' delimiter"
  | unterminated => "Unterminated string starting at"
  | control => "Invalid control character at"
  | escape => "Invalid \\escape"
  | unicodeEscape => "Invalid \\uXXXX escape"

inductive Failure
  | malformed (reason : Reason) (position : Nat)
  | fault (f : Fault)
  deriving DecidableEq, Repr

structure Cursor where
  position : Nat
  rest : List Char

def Cursor.skip (c : Cursor) (n : Nat) : Cursor := ⟨c.position + n, c.rest.drop n⟩

def isSpace (c : Char) : Bool := c = ' ' || c = '\t' || c = '\n' || c = '\r'

def Cursor.skipSpace (c : Cursor) : Cursor := c.skip (c.rest.takeWhile isSpace).length

def fail {α : Type} (reason : Reason) (position : Nat) : Except Failure α :=
  .error (.malformed reason position)

def hexValue? (c : Char) : Option Nat :=
  let n := c.toNat
  if 0x30 ≤ n ∧ n ≤ 0x39 then some (n - 0x30)
  else if 0x41 ≤ n ∧ n ≤ 0x46 then some (n - 0x41 + 10)
  else if 0x61 ≤ n ∧ n ≤ 0x66 then some (n - 0x61 + 10)
  else none

/-- The code unit of four hexadecimal digits, which another character must follow. -/
def codeUnit? : List Char → Option (Nat × List Char)
  | a :: b :: c :: d :: e :: rest => do
    let a ← hexValue? a
    let b ← hexValue? b
    let c ← hexValue? c
    let d ← hexValue? d
    return (((a * 16 + b) * 16 + c) * 16 + d, e :: rest)
  | _ => none

def simpleEscape? : Char → Option Char
  | '\x22' => some '\x22'
  | '\\' => some '\\'
  | '/' => some '/'
  | 'b' => some '\x08'
  | 'f' => some '\x0C'
  | 'n' => some '\n'
  | 'r' => some '\r'
  | 't' => some '\t'
  | _ => none

def join? (high : Half) (n : Nat) : Option Char := (Half.ofCode? n).bind high.join?

/-- The code point that an escape of four digits gives, after its `u`. A first half of a pair takes
along the second half in a further escape, if that has all its digits and is not the end of the
text; otherwise it stands alone. -/
def unicodeEscape (c : Cursor) : Except Failure (CodePoint × Cursor) :=
  match codeUnit? c.rest with
  | none => fail .unicodeEscape (c.position - 1)
  | some (n, rest) =>
    let after : Cursor := ⟨c.position + 4, rest⟩
    let alone : CodePoint × Cursor := (.ofNat n, after)
    match (Half.ofCode? n).filter Half.isHigh, rest with
    | some high, '\\' :: 'u' :: more =>
      if more.length < 5 then .ok alone
      else
        match codeUnit? more with
        | none => fail .unicodeEscape (after.position + 1)
        | some (n, more) =>
          match join? high n with
          | some ch => .ok (.char ch, ⟨after.position + 6, more⟩)
          | none => .ok alone
    | _, _ => .ok alone

def stringBody (start : Nat) : Nat → Cursor → Except Failure (List CodePoint × Cursor)
  | 0, _ => fail .unterminated start
  | fuel + 1, c =>
    match c.rest with
    | [] => fail .unterminated start
    | '\x22' :: _ => .ok ([], c.skip 1)
    | ['\\'] => fail .unterminated start
    | '\\' :: 'u' :: _ => do
      let (p, c) ← unicodeEscape (c.skip 2)
      let (ps, c) ← stringBody start fuel c
      return (p :: ps, c)
    | '\\' :: e :: _ =>
      match simpleEscape? e with
      | none => fail .escape c.position
      | some ch => do
        let (ps, c) ← stringBody start fuel (c.skip 2)
        return (.char ch :: ps, c)
    | ch :: _ =>
      if ch.toNat < 0x20 then fail .control c.position
      else do
        let (ps, c) ← stringBody start fuel (c.skip 1)
        return (.char ch :: ps, c)

def string (c : Cursor) : Except Failure (Text × Cursor) := do
  let (ps, after) ← stringBody c.position (c.rest.length + 1) (c.skip 1)
  return (.ofList ps, after)

def isDigit (c : Char) : Bool := (Text.asciiDigit? c).isSome

/-- The digits of a whole number: zero alone, or no zero in front. -/
def wholeDigits : List Char → List Char
  | '0' :: _ => ['0']
  | cs => cs.takeWhile isDigit

def fractionPart : List Char → List Char
  | '.' :: cs =>
    let ds := cs.takeWhile isDigit
    if ds.isEmpty then [] else '.' :: ds
  | _ => []

def exponentPart : List Char → List Char
  | [] => []
  | e :: cs =>
    if e = 'e' ∨ e = 'E' then
      let sign := match cs with
        | '+' :: _ => ['+']
        | '-' :: _ => ['-']
        | _ => []
      let ds := (cs.drop sign.length).takeWhile isDigit
      if ds.isEmpty then [] else e :: (sign ++ ds)
    else []

def number (c : Cursor) : Except Failure (Value × Cursor) :=
  let sign := match c.rest with
    | '-' :: _ => ['-']
    | _ => []
  let cs := c.rest.drop sign.length
  let whole := wholeDigits cs
  if whole.isEmpty then fail .value c.position
  else
    let cs := cs.drop whole.length
    let fraction := fractionPart cs
    let exponent := exponentPart (cs.drop fraction.length)
    let numeral := sign ++ whole ++ fraction ++ exponent
    let after := c.skip numeral.length
    if fraction.isEmpty ∧ exponent.isEmpty then
      match Decimal.readInteger (String.ofList numeral) with
      | .ok n => .ok (.int n, after)
      | .error (.tooLong digits) => .error (.fault (.numeralTooLong digits))
      | .error .malformed => fail .value c.position
    else
      match Decimal.readFloat (String.ofList numeral) with
      | some x => .ok (.float x, after)
      | none => fail .value c.position

def words : List (String × Value) :=
  [("null", .null), ("true", .bool true), ("false", .bool false), ("NaN", .float (0 / 0)),
   ("Infinity", .float (1 / 0)), ("-Infinity", .float (-1 / 0))]

def scalar (c : Cursor) : Except Failure (Value × Cursor) :=
  match words.find? fun w => w.1.toList.isPrefixOf c.rest with
  | some (word, v) => .ok (v, c.skip word.length)
  | none => number c

def maxDepth : Nat := Value.depthLimit

/-- One level of nesting less, unless none is left. -/
def descend (shape : String) : Nat → Except Failure Nat
  | 0 => .error (.fault (.nestedTooDeep shape))
  | levels + 1 => .ok levels

mutual

/-- A value at the cursor, with the given number of levels left for nesting. The fuel bounds the
depth of the value and the number of its parts. -/
def value : Nat → Nat → Cursor → Except Failure (Value × Cursor)
  | 0, _, c => fail .value c.position
  | fuel + 1, levels, c =>
    match c.rest with
    | '\x22' :: _ => do
      let (s, c) ← string c
      return (.text s, c)
    | '\x7b' :: _ => do
      let levels ← descend "object" levels
      let c := (c.skip 1).skipSpace
      match c.rest with
      | '\x7d' :: _ => return (.record [], c.skip 1)
      | _ =>
        let (m, c) ← members fuel levels {} c
        return (.record m.entries, c)
    | '[' :: _ => do
      let levels ← descend "array" levels
      let c := (c.skip 1).skipSpace
      match c.rest with
      | ']' :: _ => return (.list [], c.skip 1)
      | _ =>
        let (vs, c) ← items fuel levels c
        return (.list vs, c)
    | _ => scalar c

def items : Nat → Nat → Cursor → Except Failure (List Value × Cursor)
  | 0, _, c => fail .value c.position
  | fuel + 1, levels, c => do
    let (v, c) ← value fuel levels c
    let c := c.skipSpace
    match c.rest with
    | ']' :: _ => return ([v], c.skip 1)
    | ',' :: _ =>
      let (vs, c) ← items fuel levels (c.skip 1).skipSpace
      return (v :: vs, c)
    | _ => fail .comma c.position

/-- The members of an object and its closing brace, added to those already read. -/
def members : Nat → Nat → OrderedMap Text Value → Cursor →
    Except Failure (OrderedMap Text Value × Cursor)
  | 0, _, _, c => fail .value c.position
  | fuel + 1, levels, m, c =>
    match c.rest with
    | '\x22' :: _ => do
      let (key, c) ← string c
      let c := c.skipSpace
      match c.rest with
      | ':' :: _ =>
        let (v, c) ← value fuel levels (c.skip 1).skipSpace
        let m := m.insert key v
        let c := c.skipSpace
        match c.rest with
        | '\x7d' :: _ => return (m, c.skip 1)
        | ',' :: _ => members fuel levels m (c.skip 1).skipSpace
        | _ => fail .comma c.position
      | _ => fail .colon c.position
    | _ => fail .propertyName c.position

end

def read (s : String) : Except Failure Value := do
  let cs := s.toList
  match cs with
  | '\uFEFF' :: _ => fail .byteOrderMark 0
  | _ =>
    let (v, c) ← value (2 * cs.length + 2) maxDepth (Cursor.skipSpace ⟨0, cs⟩)
    let c := c.skipSpace
    if c.rest.isEmpty then return v else fail .extraData c.position

/-- A position as line and column, both counted from one. -/
def lineColumn (cs : List Char) (position : Nat) : Nat × Nat :=
  let before := cs.take position
  (before.count '\n' + 1, (before.reverse.takeWhile (· ≠ '\n')).length + 1)

def Failure.message (s : String) : Failure → String
  | malformed reason position =>
    let (line, column) := lineColumn s.toList position
    s!"{reason.message}: line {line} column {column} (char {position})"
  | fault f => f.message

end NodeScript.Json
