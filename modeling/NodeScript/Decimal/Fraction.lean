import NodeScript.Decimal.Binary64

namespace NodeScript.Decimal

/-- The float nearest to the number with the given digits, times `10 ^ e`. The magnitudes outside
the range of floats are settled by the number of digits alone. -/
def scaled (ds : List Nat) (e : Int) : Float :=
  let ds := ds.dropWhile (· = 0)
  let magnitude := ds.length + e
  if ds.isEmpty ∨ magnitude < -330 then 0
  else if 320 < magnitude then 1 / 0
  else Float.ofScientific (positional ds) (e < 0) e.natAbs

/-- Drop the underscores if each of them stands between two digits. -/
def dropSeparators (afterDigit : Bool) : List Char → Option (List Char)
  | [] => some []
  | '_' :: cs =>
    match afterDigit, cs with
    | true, c :: _ => if (Text.digit? c).isSome then dropSeparators false cs else none
    | _, _ => none
  | c :: cs => (dropSeparators (Text.digit? c).isSome cs).map (c :: ·)

def takeDigits : List Char → List Nat × List Char
  | [] => ([], [])
  | c :: cs =>
    match Text.digit? c with
    | some d => let r := takeDigits cs; (d :: r.1, r.2)
    | none => ([], c :: cs)

/-- An exponent mark with its digits, which fill the rest of the numeral. -/
def readExponent : List Char → Option Int
  | [] => some 0
  | c :: cs =>
    if c = 'e' ∨ c = 'E' then
      let (negative, cs) := splitSign cs
      match takeDigits cs with
      | (d :: ds, []) => some (applySign negative (positional (d :: ds)))
      | _ => none
    else none

/-- An unsigned numeral: digits with an optional point among them, then an optional exponent. -/
def readUnsigned (cs : List Char) : Option Float :=
  let (whole, rest) := takeDigits cs
  let (fraction, rest) :=
    match rest with
    | '.' :: rest => takeDigits rest
    | rest => ([], rest)
  if whole.isEmpty ∧ fraction.isEmpty then none
  else (readExponent rest).map fun e => scaled (whole ++ fraction) (e - fraction.length)

/-- The words for the values that have no numeral, in any case. -/
def readWord (cs : List Char) : Option Float :=
  match String.ofList (cs.map Char.toLower) with
  | "inf" | "infinity" => some (1 / 0)
  | "nan" => some (0 / 0)
  | _ => none

/-- Read a float: blank margins, a sign, then a numeral or a word. -/
def readFloat (s : Text) : Option Float := do
  let cs ← dropSeparators false (Text.trim Text.isMargin s.chars)
  let (negative, cs) := splitSign cs
  let x ← (readWord cs).or (readUnsigned cs)
  return if negative then -x else x

end NodeScript.Decimal
