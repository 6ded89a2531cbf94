import NodeScript.Decimal.Shortest
import NodeScript.Value.Basic

/-!
Texts of values: as the console shows them, as they stand inside another value, and as the literal
of the final listing of variables. An integer with too many digits has no text, nor has a value with
too many levels.
-/

namespace NodeScript.Value

def integerText (n : Int) : Except Fault String :=
  match Decimal.numeral? n with
  | some s => .ok s
  | none => .error .integerTooLong

mutual

/-- The text of a value inside a list or a record, where texts are quoted, if it has no more levels
than these. -/
def nested : Nat → Value → Except Fault String
  | 0, _ => .error .textTooDeep
  | _ + 1, null => .ok "None"
  | _ + 1, bool b => .ok (if b then "True" else "False")
  | _ + 1, int n => integerText n
  | _ + 1, float x => .ok (Decimal.floatText x)
  | _ + 1, text s => .ok (Text.quote s)
  | _ + 1, symbol s => .ok s!"<{s.qualified}: {Text.quote s.value}>"
  | levels + 1, list items =>
    (nestedItems levels items).map fun ts => "[" ++ ", ".intercalate ts ++ "]"
  | levels + 1, record entries =>
    (nestedEntries levels entries).map fun ts => "\x7b" ++ ", ".intercalate ts ++ "\x7d"

def nestedItems (levels : Nat) : List Value → Except Fault (List String)
  | [] => .ok []
  | v :: vs => do
    let t ← nested levels v
    let ts ← nestedItems levels vs
    return t :: ts

def nestedEntries (levels : Nat) : List (Text × Value) → Except Fault (List String)
  | [] => .ok []
  | (k, v) :: es => do
    let t ← nested levels v
    let ts ← nestedEntries levels es
    return s!"{Text.quote k}: {t}" :: ts

end

def plain : Value → Except Fault Text
  | text s => .ok s
  | symbol s => .ok s.qualified
  | v => (nested depthLimit v).map fun (t : String) => (t : Text)

/-- The plain text of a document's field; an empty value counts as no text. -/
def plainOrEmpty (v : Value) : Except Fault Text := if v.isEmpty then .ok "" else plain v

/-- Integral floats below this bound are shown without a point. -/
def integralBound : Float := 1e21

def floatDisplay (x : Float) : String :=
  if x.isNaN then "NaN"
  else if x.isInf then if x < 0 then "-Infinity" else "Infinity"
  else if Binary64.isIntegral x && x.abs < integralBound then Decimal.numeral (Binary64.truncate x)
  else Decimal.floatText x

/-- A value on the console; an absent one shows as nothing. -/
def display : Value → Except Fault Text
  | null => .ok ""
  | bool b => .ok (if b then "true" else "false")
  | float x => .ok (floatDisplay x)
  | text s => .ok s
  | symbol s => .ok s.value
  | v => plain v

/-- A value in a warning; an absent one is named as such, and a member with its vocabulary. -/
def describe : Value → Except Fault Text
  | null => .ok "undefined"
  | symbol s => .ok s.qualified
  | v => display v

def floatLiteral (x : Float) : String :=
  if x.isNaN then "NaN"
  else if x.isInf then if x < 0 then "-Infinity" else "Infinity"
  else Decimal.floatText x

mutual

/-- The literal of a value inside a list or a record, if these have no more levels. -/
def innerLiteral : Nat → Value → Except Fault Text
  | _, null => .ok "null"
  | _, bool b => .ok (if b then "true" else "false")
  | _, int n => (integerText n).map fun (t : String) => (t : Text)
  | _, float x => .ok (floatLiteral x)
  | _, text s => .ok (Text.literal s)
  | _, symbol s => .ok (Text.literal s.value)
  | 0, list _ | 0, record _ => .error .literalTooDeep
  | levels + 1, list items =>
    (innerLiterals levels items).map fun ts => "[" ++ Text.join ", " ts ++ "]"
  | levels + 1, record entries =>
    (entryLiterals levels entries).map fun ts => "\x7b" ++ Text.join ", " ts ++ "\x7d"

def innerLiterals (levels : Nat) : List Value → Except Fault (List Text)
  | [] => .ok []
  | v :: vs => do
    let t ← innerLiteral levels v
    let ts ← innerLiterals levels vs
    return t :: ts

def entryLiterals (levels : Nat) : List (Text × Value) → Except Fault (List Text)
  | [] => .ok []
  | (k, v) :: es => do
    let t ← innerLiteral levels v
    let ts ← entryLiterals levels es
    return (Text.literal k ++ ": " ++ t) :: ts

end

/-- The literal of a variable's value: a float shows as on the console, or as null. -/
def literal : Value → Except Fault Text
  | float x => .ok (if x.isFinite then floatDisplay x else "null")
  | v => innerLiteral depthLimit v

end NodeScript.Value
