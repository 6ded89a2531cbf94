import NodeScript.Decimal.Binary64

/-!
The shortest decimal numeral of a float. Among the decimals that read back as the float, those
with the fewest digits are kept, and of these the nearest to the float is written.
-/

namespace NodeScript.Decimal

/-- A positive rational `value / unit` with the neighbourhood that rounds to it: everything from
`below` under it to `above` over it, the ends included if `closed`. -/
structure Neighbourhood where
  value : Nat
  below : Nat
  above : Nat
  unit : Nat
  closed : Bool

/-- The reals that round to the float `significand * 2 ^ exponent`. A power of two has its lower
neighbour at half the distance of the upper one. -/
def Neighbourhood.ofParts (p : Binary64.Parts) : Neighbourhood :=
  let scale := Nat.pow 2 p.exponent.toNat
  let atPower := p.significand = Binary64.hiddenBit ∧ Binary64.minExponent < p.exponent
  let below := if atPower then 1 else 2
  { value := 4 * p.significand * scale
    below := below * scale
    above := 2 * scale
    unit := 4 * Nat.pow 2 (-p.exponent).toNat
    closed := p.significand % 2 = 0 }

/-- Measure in steps of `10 ^ power`. -/
def Neighbourhood.rescale (n : Neighbourhood) (power : Int) : Neighbourhood :=
  let up := Nat.pow 10 (-power).toNat
  { n with
    value := n.value * up
    below := n.below * up
    above := n.above * up
    unit := n.unit * Nat.pow 10 power.toNat }

def Neighbourhood.contains (n : Neighbourhood) (k : Nat) : Bool :=
  let x := k * n.unit
  if n.closed then n.value ≤ x + n.below && x ≤ n.value + n.above
  else n.value < x + n.below && x < n.value + n.above

/-- The integer in the neighbourhood that is nearest to the value, if there is one. -/
def Neighbourhood.nearest? (n : Neighbourhood) : Option Nat :=
  let k := n.value / n.unit
  match n.contains k, n.contains (k + 1) with
  | true, true =>
    let r := 2 * (n.value % n.unit)
    some (if r < n.unit ∨ (r = n.unit ∧ k % 2 = 0) then k else k + 1)
  | true, false => some k
  | false, true => some (k + 1)
  | false, false => none

/-- The number of digits before the point; zero or negative for a value below one. -/
def Neighbourhood.wholeDigits (n : Neighbourhood) : Int :=
  if n.unit ≤ n.value then (natDigits (n.value / n.unit)).length
  else 1 - (natDigits ((n.unit - 1) / n.value)).length

/-- Seventeen digits tell any two floats apart. -/
def maxDigits : Nat := 17

def Neighbourhood.shortest (n : Neighbourhood) : Nat × Int :=
  let whole := n.wholeDigits
  let grid? (count : Nat) : Option (Nat × Int) :=
    let power := whole - count
    (n.rescale power).nearest?.map (·, power)
  ((List.range maxDigits).findSome? fun i => grid? (i + 1)).getD
    ((n.rescale (whole - maxDigits)).value / (n.rescale (whole - maxDigits)).unit,
      whole - maxDigits)

def dropTrailingZeros (ds : List Char) : List Char := (ds.reverse.dropWhile (· = '0')).reverse

/-- Where a numeral is written without an exponent: its point stands at most this many places to
the right of its first digit, and there are at most this many zeros before it. -/
def maxPoint : Int := 16

def minPoint : Int := -3

/-- Lay out digits whose point stands `point` places to the right of the first of them. -/
def layout (ds : List Char) (point : Int) : List Char :=
  if minPoint ≤ point ∧ point ≤ maxPoint then
    if point ≤ 0 then '0' :: '.' :: (List.replicate (-point).toNat '0' ++ ds)
    else
      let whole := ds.take point.toNat
      let fraction := ds.drop point.toNat
      whole ++ List.replicate (point.toNat - ds.length) '0' ++
        '.' :: (if fraction.isEmpty then ['0'] else fraction)
  else
    let exponent := point - 1
    let digits := natDigits exponent.natAbs
    let mantissa :=
      match ds with
      | [] => ['0']
      | [d] => [d]
      | d :: ds => d :: '.' :: ds
    mantissa ++ 'e' :: (if exponent < 0 then '-' else '+') ::
      (List.replicate (2 - digits.length) '0' ++ digits)

/-- The text of a float: always with a point or an exponent when it is finite. -/
def floatText (x : Float) : String :=
  if x.isNaN then "nan"
  else if x.isInf then if x < 0 then "-inf" else "inf"
  else
    let p := Binary64.parts x
    let body :=
      if p.significand = 0 then ['0', '.', '0']
      else
        let (n, power) := (Neighbourhood.ofParts p).shortest
        let ds := natDigits n
        layout (dropTrailingZeros ds) (ds.length + power)
    String.ofList (if p.negative then '-' :: body else body)

end NodeScript.Decimal
