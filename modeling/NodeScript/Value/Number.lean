import NodeScript.Decimal.Fraction
import NodeScript.Value.Basic

namespace NodeScript

inductive Number
  | int (n : Int)
  | float (x : Float)

namespace Number

def intBelow (n : Int) (x : Float) : Bool :=
  if x.isFinite then (n : Rat) < Binary64.toRat x else 0 < x

def floatBelow (x : Float) (n : Int) : Bool :=
  if x.isFinite then Binary64.toRat x < (n : Rat) else x < 0

def lt : Number → Number → Bool
  | int m, int n => m < n
  | float x, float y => x < y
  | int n, float x => intBelow n x
  | float x, int n => floatBelow x n

def eq : Number → Number → Bool
  | int m, int n => m == n
  | float x, float y => x == y
  | int n, float x | float x, int n => x.isFinite && Binary64.toRat x == n

def le (a b : Number) : Bool := lt a b || eq a b

def truncate : Number → Int
  | int n => n
  | float x => Binary64.truncate x

def toFloat? : Number → Option Float
  | int n => Binary64.ofInt? n
  | float x => some x

/-- The sum: of two integers exactly, else of two floats. -/
def add : Number → Number → Except Fault Number
  | int m, int n => .ok (int (m + n))
  | a, b =>
    match a.toFloat?, b.toFloat? with
    | some x, some y => .ok (float (x + y))
    | _, _ => .error .integerTooLarge

def toValue : Number → Value
  | int n => .int n
  | float x => .float x

end Number

namespace Value

/-- Read a text as a finite number: an integer if it is one, else a float. -/
def readNumber (s : Text) : Option Number :=
  let s := Text.strip s
  if s.chars.contains '_' then none
  else
    match Decimal.readInteger s with
    | .ok n => some (.int n)
    | .error _ => ((Decimal.readFloat s).filter Float.isFinite).map .float

def toNumber? : Value → Option Number
  | bool b => some (.int (if b then 1 else 0))
  | int n => some (.int n)
  | float x => if x.isFinite then some (.float x) else none
  | text s => readNumber s
  | symbol s => readNumber s.value
  | null | list _ | record _ => none

def toInteger? (v : Value) : Option Int := v.toNumber?.map Number.truncate

def toFloat? (v : Value) : Option Float := v.toNumber?.bind Number.toFloat?

/-- The integer that a limit is given as: unlike a pin's value, it must be a number or an integer
numeral as it stands. -/
def requireInteger : Value → Except Fault Int
  | bool b => .ok (if b then 1 else 0)
  | int n => .ok n
  | float x =>
    if x.isNaN then .error .nanToInteger
    else if x.isInf then .error .infinityToInteger
    else .ok (Binary64.truncate x)
  | text s => readLimit s
  | symbol s => readLimit s.value
  | v => .error (.notNumeric v.typeName)
where
  readLimit (s : Text) : Except Fault Int :=
    match Decimal.readInteger s with
    | .ok n => .ok n
    | .error (.tooLong digits) => .error (.numeralTooLong digits)
    | .error .malformed => .error (.notInteger s)

/-- The float that a coordinate is given as: a number, or a numeral of a float as it stands. -/
def requireFloat : Value → Except Fault Float
  | bool b => ofInt (if b then 1 else 0)
  | int n => ofInt n
  | float x => .ok x
  | text s => readCoordinate s
  | symbol s => readCoordinate s.value
  | v => .error (.notReal v.typeName)
where
  ofInt (n : Int) : Except Fault Float :=
    match Binary64.ofInt? n with
    | some x => .ok x
    | none => .error .integerTooLarge
  readCoordinate (s : Text) : Except Fault Float :=
    match Decimal.readFloat s with
    | some x => .ok x
    | none => .error (.notFloat s)

/-- The number that a limit is compared as. A text is never compared, even if it reads as one. -/
def comparable? : Value → Option Number
  | bool b => some (.int (if b then 1 else 0))
  | int n => some (.int n)
  | float x => some (.float x)
  | _ => none

/-- The sum of two numbers, or two texts or two lists joined. -/
def plus (v w : Value) : Except Fault Value :=
  match v, w with
  | text s, text t => .ok (text (s ++ t))
  | list vs, list ws => .ok (list (vs ++ ws))
  | text _, w | list _, w => .error (.cannotJoin v.typeName w.typeName)
  | v, w =>
    match v.comparable?, w.comparable? with
    | some a, some b => (a.add b).map Number.toValue
    | _, _ => .error (.noSum v.typeName w.typeName)

def reachedBy (limit : Value) (count : Nat) : Except Fault Bool :=
  match limit.comparable? with
  | some l => .ok (l.le (.int count))
  | none => .error (.notComparable ">=" limit.typeName)

end Value

end NodeScript
