import NodeScript.Generator
import NodeScript.Value.Number

namespace NodeScript

structure Config where
  maxSteps : Value := .int 1000
  maxLoopIterations : Value := .int 1000
  seed : Value := .null
  entropy : Entropy := fun _ => []

inductive ConfigError
  | maxSteps
  | maxLoopIterations
  | fault (f : Fault)
  deriving DecidableEq, Repr

def ConfigError.message : ConfigError → String
  | maxSteps => "max_steps must be >= 1"
  | maxLoopIterations => "max_loop_iterations must be >= 0"
  | fault f => f.message

namespace Config

def require (v : Value) : Except ConfigError Int := v.requireInteger.mapError .fault

/-- A configuration is accepted if a run may take a step and no loop limit is negative. -/
def check (c : Config) : Except ConfigError Config := do
  let steps ← require c.maxSteps
  if steps < 1 then throw .maxSteps
  let iterations ← require c.maxLoopIterations
  if iterations < 0 then throw .maxLoopIterations
  return c

/-- A limit turned into an integer; null keeps the current one. -/
def replaced (current new : Value) : Except ConfigError Value :=
  match new with
  | .null => .ok current
  | v => (require v).map .int

def withLimits (c : Config) (maxSteps maxLoopIterations : Value := .null) :
    Except ConfigError Config := do
  let steps ← replaced c.maxSteps maxSteps
  let iterations ← replaced c.maxLoopIterations maxLoopIterations
  check { c with maxSteps := steps, maxLoopIterations := iterations }

/-- How many steps a run may take: as many counts as lie below the limit. -/
def permittedSteps (c : Config) : Except Fault Nat :=
  match c.maxSteps.comparable? with
  | some (.int n) => .ok n.toNat
  | some (.float x) => .ok (Binary64.ceil x).toNat
  | none => .error (.notComparable "<" c.maxSteps.typeName)

end Config

end NodeScript
