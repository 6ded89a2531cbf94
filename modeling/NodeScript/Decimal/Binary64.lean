import NodeScript.Decimal.Integer

/-!
The exact value of a binary floating point number. A finite float is an integer times a power of
two; rounding to integers and comparison with integers go through that rational.
-/

namespace NodeScript.Binary64

/-- A finite float is `significand * 2 ^ exponent`, negated if `negative`. -/
structure Parts where
  negative : Bool
  significand : Nat
  exponent : Int
  deriving DecidableEq, Repr

/-- The exponent of the subnormal numbers, the least of all. -/
def minExponent : Int := -1074

/-- The leading bit of the significand of a normal number, which is not stored. -/
def hiddenBit : Nat := Nat.pow 2 52

/-- A float is stored as a sign bit, a biased exponent of eleven bits and a fraction. -/
def parts (x : Float) : Parts :=
  let bits := x.toBits.toNat
  let biased : Nat := bits / hiddenBit % Nat.pow 2 11
  let fraction : Nat := bits % hiddenBit
  let negative : Bool := Nat.pow 2 63 ≤ bits
  if biased = 0 then ⟨negative, fraction, minExponent⟩
  else ⟨negative, hiddenBit + fraction, minExponent + (biased - 1 : Nat)⟩

def toRat (x : Float) : Rat :=
  let p := parts x
  let m := Decimal.applySign p.negative p.significand
  if 0 ≤ p.exponent then ((m * Nat.pow 2 p.exponent.toNat : Int) : Rat)
  else mkRat m (Nat.pow 2 (-p.exponent).toNat)

def floor (x : Float) : Int := (toRat x).floor

def ceil (x : Float) : Int := -(-toRat x).floor

def truncate (x : Float) : Int := (toRat x).num.tdiv (toRat x).den

def isIntegral (x : Float) : Bool := x.isFinite && (toRat x).den == 1

/-- The float nearest to `n`, ties to even, unless `n` is out of range. -/
def ofInt? (n : Int) : Option Float :=
  let x := Float.ofScientific n.natAbs false 0
  if x.isFinite then some (if n < 0 then -x else x) else none

end NodeScript.Binary64
