import NodeScript.OrderedMap
import NodeScript.Value.Number

/-!
The state of loops. A loop node is visited once for each iteration; between visits its state waits
here under the identifier of the node, and it is dropped when the loop ends.
-/

namespace NodeScript

inductive LoopStep
  | body
  | completed
  | aborted
  deriving DecidableEq, Repr

def LoopStep.name : LoopStep → String
  | body => "body"
  | completed => "completed"
  | aborted => "aborted"

/-- A counting loop: the index that comes next, the last one allowed, the signed step, and the
number of iterations so far with the index of the latest of them. -/
structure ForState where
  next : Int
  last : Int
  step : Int
  direction : Int
  iterations : Nat := 0
  current : Int
  deriving DecidableEq, Repr

namespace ForState

/-- Begin a loop. The step counts from `start` toward `last`, whatever its sign. -/
def start (start last step : Int) : ForState :=
  let direction := if start ≤ last then 1 else -1
  { next := start, last, step := step.natAbs * direction, direction, current := start }

def pastEnd (s : ForState) : Bool :=
  if 0 < s.direction then s.last < s.next else s.next < s.last

/-- Visit the loop. Only a step into the body changes the state. -/
def advance (limit : Value) (s : ForState) : Except Fault (LoopStep × ForState) := do
  if s.pastEnd then return (.completed, s)
  if ← limit.reachedBy s.iterations then return (.aborted, s)
  return (.body,
    { s with current := s.next, next := s.next + s.step, iterations := s.iterations + 1 })

end ForState

/-- Visit a conditional loop that has run `iterations` times. -/
def advanceWhile (limit : Value) (condition : Bool) (iterations : Nat) :
    Except Fault (LoopStep × Nat) := do
  if !condition then return (.completed, iterations)
  if ← limit.reachedBy iterations then return (.aborted, iterations)
  return (.body, iterations + 1)

structure Loops where
  counting : OrderedMap Text ForState := {}
  conditional : OrderedMap Text Nat := {}

namespace Loops

def startFor (ls : Loops) (id : Text) (s : ForState) : Loops :=
  { ls with counting := ls.counting.insert id s }

def setWhile (ls : Loops) (id : Text) (iterations : Nat) : Loops :=
  { ls with conditional := ls.conditional.insert id iterations }

/-- The iterations of a conditional loop; none yet if it is not under way. -/
def iterations (ls : Loops) (id : Text) : Nat := (ls.conditional.get? id).getD 0

/-- The index of a counting loop; zero if it is not under way. -/
def currentIndex (ls : Loops) (id : Text) : Int :=
  ((ls.counting.get? id).map ForState.current).getD 0

def finish (ls : Loops) (id : Text) : Loops :=
  { counting := ls.counting.erase id, conditional := ls.conditional.erase id }

def active (ls : Loops) : Nat := ls.counting.size + ls.conditional.size

def UnderWay (ls : Loops) (id : Text) : Prop :=
  ls.counting.contains id = true ∨ ls.conditional.contains id = true

theorem not_underWay_iff {ls : Loops} {id : Text} :
    ¬ls.UnderWay id ↔ ls.counting.get? id = none ∧ ls.conditional.get? id = none := by
  simp [UnderWay, OrderedMap.contains]

theorem active_eq_zero {ls : Loops} (h : ∀ id, ¬ls.UnderWay id) : ls.active = 0 := by
  rw [active, OrderedMap.size_eq_zero_of_forall_get? fun id => (not_underWay_iff.1 (h id)).1,
    OrderedMap.size_eq_zero_of_forall_get? fun id => (not_underWay_iff.1 (h id)).2]

theorem startFor_startFor (ls : Loops) (id : Text) (s t : ForState) :
    (ls.startFor id s).startFor id t = ls.startFor id t := by
  simp only [startFor, OrderedMap.insert_insert_self]

theorem finish_startFor (ls : Loops) (id : Text) (s : ForState) :
    (ls.startFor id s).finish id = ls.finish id := by
  simp only [finish, startFor, OrderedMap.erase_insert_self]

theorem setWhile_setWhile (ls : Loops) (id : Text) (m n : Nat) :
    (ls.setWhile id m).setWhile id n = ls.setWhile id n := by
  simp only [setWhile, OrderedMap.insert_insert_self]

theorem finish_setWhile (ls : Loops) (id : Text) (n : Nat) :
    (ls.setWhile id n).finish id = ls.finish id := by
  simp only [finish, setWhile, OrderedMap.erase_insert_self]

theorem iterations_setWhile_self (ls : Loops) (id : Text) (n : Nat) :
    (ls.setWhile id n).iterations id = n := by
  simp [iterations, setWhile]

theorem currentIndex_startFor_of_ne (ls : Loops) {id id' : Text} (h : id' ≠ id) (s : ForState) :
    (ls.startFor id s).currentIndex id' = ls.currentIndex id' := by
  rw [currentIndex, startFor, OrderedMap.get?_insert_of_ne _ h]
  rfl

theorem currentIndex_finish_self (ls : Loops) (id : Text) : (ls.finish id).currentIndex id = 0 := by
  rw [currentIndex, finish, OrderedMap.get?_erase_self]
  rfl

theorem currentIndex_finish_of_ne (ls : Loops) {id id' : Text} (h : id' ≠ id) :
    (ls.finish id).currentIndex id' = ls.currentIndex id' := by
  rw [currentIndex, finish, OrderedMap.get?_erase_of_ne _ h]
  rfl

end Loops

end NodeScript
