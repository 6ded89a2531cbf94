import NodeScript.OrderedMap
import NodeScript.Generator
import NodeScript.Value.Number
import NodeScript.Value.Text

/-!
The operations of the data kinds. An operation takes its inputs by label. When they cannot be used
it ends with a warning and the value to go on with.
-/

namespace NodeScript

inductive Stop
  | warning (message : Text) (fallback : Value)
  | fault (f : Fault)

abbrev Inputs := OrderedMap Text Value

namespace Inputs

def propertiesLabel : Text := "_properties"

/-- The label that hides the generator of the run. -/
def generatorLabel : Text := "_rng"

def value (i : Inputs) (label : Text) : Value := (i.get? label).getD .null

theorem value_insert_self (i : Inputs) (label : Text) (v : Value) :
    value (i.insert label v) label = v := by
  rw [value, OrderedMap.get?_insert_self]
  rfl

theorem value_insert_of_ne (i : Inputs) {label other : Text} (h : other ≠ label) (v : Value) :
    value (i.insert label v) other = i.value other := by
  rw [value, OrderedMap.get?_insert_of_ne _ h]
  rfl

end Inputs

abbrev Operation := Inputs → Generator → Except Stop (Value × Generator)

namespace Operation

variable {α : Type}

def shown : List Value → Except Fault (List Text)
  | [] => .ok []
  | v :: vs => do
    let t ← v.describe
    let ts ← shown vs
    return t :: ts

def enumerate : List Text → Text
  | [] => ""
  | [t] => t
  | [s, t] => s ++ " and " ++ t
  | t :: ts => t ++ ", " ++ enumerate ts

/-- What could be read of some inputs. If that is nothing, a warning says what they should have
been, and shows them. -/
def demand (what : Text) (vs : List Value) (fallback : Value) : Option α → Except Stop α
  | some x => .ok x
  | none =>
    match shown vs with
    | .ok ts =>
      .error (.warning ("expected " ++ (what ++ " but received " ++ enumerate ts ++ ".")) fallback)
    | .error f => .error (.fault f)

theorem demand_eq_ok_iff {what : Text} {vs : List Value} {fallback : Value} {r : Option α} {x : α} :
    demand what vs fallback r = .ok x ↔ r = some x := by
  cases r with
  | some y => simp [demand]
  | none => cases h : shown vs <;> simp [demand, h]

def both (read : Value → Option α) (v w : Value) : Option (α × α) := do
  let x ← read v
  let y ← read w
  return (x, y)

theorem both_eq_some_iff {read : Value → Option α} {v w : Value} {p : α × α} :
    both read v w = some p ↔ read v = some p.1 ∧ read w = some p.2 := by
  cases hv : read v <;> cases hw : read w <;> simp [both, hv, hw, Prod.ext_iff]

def operandsAt (first second : Text) (read : Value → Option α) (fallback : Value) (i : Inputs) :
    Except Stop (α × α) :=
  demand "numeric inputs" [i.value first, i.value second] fallback
    (both read (i.value first) (i.value second))

def operands (read : Value → Option α) (fallback : Value) (i : Inputs) : Except Stop (α × α) :=
  operandsAt "A" "B" read fallback i

theorem operands_eq_ok_iff {read : Value → Option α} {fallback : Value} {i : Inputs} {p : α × α} :
    operands read fallback i = .ok p ↔
      read (i.value "A") = some p.1 ∧ read (i.value "B") = some p.2 :=
  demand_eq_ok_iff.trans both_eq_some_iff

def operand (read : Value → Option α) (label : Text) (fallback : Value) (i : Inputs) :
    Except Stop α :=
  demand ("a numeric " ++ label) [i.value label] fallback (read (i.value label))

theorem operand_eq_ok_iff {read : Value → Option α} {label : Text} {fallback : Value} {i : Inputs}
    {x : α} : operand read label fallback i = .ok x ↔ read (i.value label) = some x :=
  demand_eq_ok_iff

def ordered (lt : α → α → Bool) (p : α × α) : α × α := if lt p.2 p.1 then (p.2, p.1) else p

def bounds (read : Value → Option α) (lt : α → α → Bool) (fallback : Value) (i : Inputs) :
    Except Stop (α × α) :=
  demand "numeric Min and Max" [i.value "Min", i.value "Max"] fallback
    ((both read (i.value "Min") (i.value "Max")).map (ordered lt))

def confine (lt : α → α → Bool) (x : α) (range : α × α) : α :=
  let x := if lt x range.1 then range.1 else x
  if lt range.2 x then range.2 else x

def clamp (read : Value → Option α) (lt : α → α → Bool) (fallback : Value) (i : Inputs) :
    Except Stop α :=
  demand "numeric Value, Min and Max" [i.value "Value", i.value "Min", i.value "Max"] fallback do
    let x ← read (i.value "Value")
    let range ← both read (i.value "Min") (i.value "Max")
    return confine lt x (ordered lt range)

/-- Choose one of two operands; if only one of them is a number it is chosen. -/
def pick (read : Value → Option α) (choose : α → α → α) (fallback : Value) (i : Inputs) :
    Except Stop α :=
  demand "numeric inputs" [i.value "A", i.value "B"] fallback
    (Option.merge choose (read (i.value "A")) (read (i.value "B")))

def smaller (lt : α → α → Bool) (x y : α) : α := if lt y x then y else x

def larger (lt : α → α → Bool) (x y : α) : α := if lt x y then y else x

def intLt (m n : Int) : Bool := m < n

def floatLt (x y : Float) : Bool := x < y

/-- The quotient rounded toward zero. -/
def divide (a b : Int) : Int := a.tdiv b

/-- The remainder from zero up to the size of the divisor. -/
def modulo (a b : Int) : Int := a % b

def plain (f : Inputs → Except Stop Value) : Operation := fun i g => (f i).map (·, g)

def int (f : Inputs → Except Stop Int) : Operation := plain fun i => (f i).map .int

def float (f : Inputs → Except Stop Float) : Operation := plain fun i => (f i).map .float

def integers (f : Int → Int → Int) : Operation :=
  int fun i => (operands Value.toInteger? (.int 0) i).map fun p => f p.1 p.2

def floats (f : Float → Float → Float) : Operation :=
  float fun i => (operands Value.toFloat? (.float 0) i).map fun p => f p.1 p.2

def integerDivision (f : Int → Int → Int) (warning : Text) : Operation :=
  int fun i => do
    let (a, b) ← operands Value.toInteger? (.int 0) i
    if b = 0 then throw (.warning warning (.int 0))
    return f a b

def floatDivision : Operation :=
  float fun i => do
    let (a, b) ← operands Value.toFloat? (.float 0) i
    if b == 0 then throw (.warning "attempted to divide by zero. Returning 0." (.float 0))
    return a / b

def compare (f : Number → Number → Bool) : Operation :=
  plain fun i => (operands Value.toNumber? (.bool false) i).map fun p => .bool (f p.1 p.2)

def rounding (f : Float → Int) : Operation :=
  int fun i => (operand Value.toFloat? "Value" (.int 0) i).map f

/-- Round half up, in float arithmetic. -/
def roundHalfUp (x : Float) : Int := Binary64.floor (x + 0.5)

def infinity : Float := 1 / 0

def notANumber : Float := 0 / 0

/-- A power; one that is too large, or a negative power of zero, is infinite. -/
def power (base exponent : Float) : Float :=
  if base == 0 && exponent < 0 then infinity
  else
    let r := base.pow exponent
    if r.isInf then infinity else r

def powerOperation : Operation :=
  float fun i => (operandsAt "Base" "Exponent" Value.toFloat? (.float 0) i).map fun p =>
    power p.1 p.2

def squareRoot (x : Float) : Float := if x < 0 then notANumber else x.sqrt

/-- From `A` to `B` by the fraction `Alpha`; without a target nothing moves. -/
def interpolate : Operation :=
  float fun i => do
    let a ← operand Value.toFloat? "A" (.float 0) i
    let b ←
      match i.value "B" with
      | .null => pure a
      | _ => operand Value.toFloat? "B" (.float 0) i
    let alpha ←
      match i.value "Alpha" with
      | .null => pure 0
      | _ => operand Value.toFloat? "Alpha" (.float 0) i
    return a + (b - a) * alpha

def intToFloat : Operation :=
  float fun i => do
    let n ← operand Value.toInteger? "Value" (.float 0) i
    match Binary64.ofInt? n with
    | some x => return x
    | none => throw (.fault .integerTooLarge)

def stored : Operation :=
  plain fun i => .ok (((i.value Inputs.propertiesLabel).field? "value").getD .null)

def displayed (i : Inputs) (label : Text) : Except Stop Text :=
  (i.value label).display.mapError .fault

def concatenate : Operation :=
  plain fun i => do
    let a ← displayed i "A"
    let b ← displayed i "B"
    return .text (a ++ b)

/-- Draw from the generator of the run. An input under the generator's label hides it, and the
draw then comes from a generator of its own, which has no seed. -/
def draw {β : Type} (i : Inputs) (g : Generator) (f : Generator → β × Generator) :
    β × Generator :=
  if i.contains Inputs.generatorLabel then
    let other := Generator.unseeded g.entropy
    ((f other).1, { g with entropy := other.entropy })
  else f g

def randomInteger : Operation := fun i g => do
  let (lo, hi) ← bounds Value.toInteger? intLt (.int 0) i
  let (n, g) := draw i g (Generator.between lo hi)
  return (.int n, g)

/-- Nothing is drawn from a range that is a single point or too wide. -/
def randomFloat : Operation := fun i g => do
  let (lo, hi) ← bounds Value.toFloat? floatLt (.float 0) i
  let span := hi - lo
  if span == 0 || !span.isFinite then return (.float lo, g)
  let (u, g) := draw i g Generator.unit
  return (.float (lo + span * u), g)

end Operation

open Operation in
/-- The operation of a kind. The kinds that act on the run, or read its state, have none. -/
def NodeKind.operation? : NodeKind → Option Operation
  | beginPlay | branch | sequence | forLoop | whileLoop | printString => none
  | setVariable | getVariable | clearVariable => none
  | stringLiteral | integerLiteral | floatLiteral | booleanLiteral => some stored
  | addInteger => some (integers (· + ·))
  | subtractInteger => some (integers (· - ·))
  | multiplyInteger => some (integers (· * ·))
  | divideInteger =>
    some (integerDivision divide "attempted to divide by zero. Returning 0.")
  | moduloInteger => some (integerDivision modulo "attempted modulo by zero. Returning 0.")
  | clampInteger => some (int (clamp Value.toInteger? intLt (.int 0)))
  | randomInteger => some Operation.randomInteger
  | absoluteInteger =>
    some (int fun i => (operand Value.toInteger? "Value" (.int 0) i).map fun n => (n.natAbs : Int))
  | minInteger => some (int (pick Value.toInteger? (smaller intLt) (.int 0)))
  | maxInteger => some (int (pick Value.toInteger? (larger intLt) (.int 0)))
  | addFloat => some (floats (· + ·))
  | subtractFloat => some (floats (· - ·))
  | multiplyFloat => some (floats (· * ·))
  | divideFloat => some floatDivision
  | clampFloat => some (float (clamp Value.toFloat? floatLt (.float 0)))
  | randomFloat => some Operation.randomFloat
  | absoluteFloat =>
    some (float fun i => (operand Value.toFloat? "Value" (.float 0) i).map Float.abs)
  | minFloat => some (float (pick Value.toFloat? (smaller floatLt) (.float 0)))
  | maxFloat => some (float (pick Value.toFloat? (larger floatLt) (.float 0)))
  | powerFloat => some powerOperation
  | squareRootFloat =>
    some (float fun i => (operand Value.toFloat? "Value" (.float 0) i).map squareRoot)
  | floorFloat => some (rounding Binary64.floor)
  | ceilFloat => some (rounding Binary64.ceil)
  | roundFloat => some (rounding roundHalfUp)
  | lerpFloat => some interpolate
  | greaterThanInteger | greaterThanFloat => some (Operation.compare fun a b => b.lt a)
  | lessThanInteger | lessThanFloat => some (Operation.compare Number.lt)
  | equalsInteger | equalsFloat => some (Operation.compare Number.eq)
  | concatString => some concatenate
  | stringLength => some (int fun i => (displayed i "Value").map fun s => (s.length : Int))
  | toString => some (plain fun i => (displayed i "Value").map .text)
  | booleanNot => some (plain fun i => .ok (.bool !(i.value "Value").isTruthy))
  | intToFloat => some Operation.intToFloat
  | floatToInt => some (rounding Binary64.truncate)

end NodeScript
