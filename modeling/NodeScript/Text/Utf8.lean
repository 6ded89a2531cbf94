import NodeScript.Fault

/-!
Texts as UTF-8 octets. A sequence that cannot be decoded is reported with the span of octets that
rules it out; a text that cannot be encoded, with its first lone halves of surrogate pairs.
-/

namespace NodeScript.Text

inductive Utf8Cause
  | badStart
  | badContinuation
  | truncated
  deriving DecidableEq, Repr

/-- The first undecodable octets: `count` of them from `start`, the first being `octet`. -/
structure Utf8Failure where
  cause : Utf8Cause
  octet : Nat
  start : Nat
  count : Nat
  deriving DecidableEq, Repr

def Utf8Cause.message : Utf8Cause → String
  | badStart => "invalid start byte"
  | badContinuation => "invalid continuation byte"
  | truncated => "unexpected end of data"

def Utf8Failure.message (f : Utf8Failure) : String :=
  let hex := Nat.toDigits 16 f.octet
  let hex := String.ofList (List.replicate (2 - hex.length) '0' ++ hex)
  let what :=
    if f.count = 1 then s!"byte 0x{hex} in position {f.start}"
    else s!"bytes in position {f.start}-{f.start + f.count - 1}"
  s!"'utf-8' codec can't decode {what}: {f.cause.message}"

/-- How a lead octet goes on: the number of octets that follow it, the bounds of the first of
them, and the bits that it contributes itself. -/
structure Lead where
  following : Nat
  low : Nat
  high : Nat
  bits : Nat

def lead? (b : Nat) : Option Lead :=
  if b < 0x80 then some ⟨0, 0x80, 0xBF, b⟩
  else if b < 0xC2 then none
  else if b < 0xE0 then some ⟨1, 0x80, 0xBF, b - 0xC0⟩
  else if b < 0xF0 then
    some ⟨2, if b = 0xE0 then 0xA0 else 0x80, if b = 0xED then 0x9F else 0xBF, b - 0xE0⟩
  else if b < 0xF5 then
    some ⟨3, if b = 0xF0 then 0x90 else 0x80, if b = 0xF4 then 0x8F else 0xBF, b - 0xF0⟩
  else none

/-- Read the octets that follow a lead octet. `seen` counts the octets of this character so far;
the first of the following octets lies between `low` and `high`, the others in the full range. -/
def follow : Nat → Nat → Nat → Nat → Nat → List Nat → Except (Utf8Cause × Nat) (Nat × List Nat)
  | 0, _, _, _, bits, rest => .ok (bits, rest)
  | _ + 1, _, _, seen, _, [] => .error (.truncated, seen)
  | n + 1, low, high, seen, bits, b :: rest =>
    if low ≤ b ∧ b ≤ high then follow n 0x80 0xBF (seen + 1) (bits * 64 + (b - 0x80)) rest
    else .error (.badContinuation, seen)

/-- Decode the octets from position `pos` on. The fuel bounds the number of characters. -/
def decodeFrom : Nat → Nat → List Nat → Except Utf8Failure (List Char)
  | 0, _, _ => .ok []
  | _ + 1, _, [] => .ok []
  | fuel + 1, pos, b :: rest =>
    match lead? b with
    | none => .error ⟨.badStart, b, pos, 1⟩
    | some l =>
      match follow l.following l.low l.high 1 l.bits rest with
      | .error (cause, count) => .error ⟨cause, b, pos, count⟩
      | .ok (n, rest) => (decodeFrom fuel (pos + l.following + 1) rest).map (Char.ofNat n :: ·)

def decodeUtf8 (octets : List Nat) : Except Utf8Failure String :=
  (decodeFrom octets.length 0 octets).map String.ofList

/-- The number of lone halves at the front. -/
def leadingHalves : List (Half × String) → Nat
  | [] => 0
  | (_, s) :: es => if s = "" then leadingHalves es + 1 else 1

def encodeUtf8 (t : Text) : Except Fault (List Nat) :=
  match t.tail with
  | [] => .ok ((t.head.toList.flatMap String.utf8EncodeChar).map UInt8.toNat)
  | (half, _) :: _ => .error (.unencodable half t.head.length (leadingHalves t.tail))

/-- Every line ends in a line feed, however it was written. -/
def normalizeLines : List Char → List Char
  | [] => []
  | '\r' :: '\n' :: cs => '\n' :: normalizeLines cs
  | '\r' :: cs => '\n' :: normalizeLines cs
  | c :: cs => c :: normalizeLines cs

end NodeScript.Text
