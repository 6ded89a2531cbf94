import NodeScript.Fault
import NodeScript.Vocabulary

namespace NodeScript

inductive Value
  | null
  | bool (b : Bool)
  | int (n : Int)
  | float (x : Float)
  | text (s : Text)
  | symbol (s : Symbol)
  | list (items : List Value)
  | record (entries : List (Text × Value))

namespace Value

instance : Inhabited Value := ⟨null⟩

def typeName : Value → String
  | null => "NoneType"
  | bool _ => "bool"
  | int _ => "int"
  | float _ => "float"
  | text _ => "str"
  | symbol (.kind _) => Vocabulary.title NodeKind
  | symbol (.dataType _) => Vocabulary.title DataType
  | symbol (.direction _) => Vocabulary.title Direction
  | list _ => "list"
  | record _ => "dict"

/-- Nothing in it: the values that stand for a missing field of a document. -/
def isEmpty : Value → Bool
  | null => true
  | bool b => !b
  | int n => n == 0
  | float x => x == 0
  | text s => s == ""
  | symbol _ => false
  | list items => items.isEmpty
  | record entries => entries.isEmpty

/-- The condition that a value stands for. Not a number counts as false. -/
def isTruthy : Value → Bool
  | float x => !x.isNaN && x != 0
  | v => !v.isEmpty

/-- How many levels of a value can be gone down into. They take room on the stack. -/
def depthLimit : Nat := 990

mutual

/-- The levels of a value, counting `leaf` of them for one that is neither list nor record. -/
def depth (leaf : Nat) : Value → Nat
  | list items => depthOfItems leaf items + 1
  | record entries => depthOfEntries leaf entries + 1
  | _ => leaf

def depthOfItems (leaf : Nat) : List Value → Nat
  | [] => 0
  | v :: vs => max (depth leaf v) (depthOfItems leaf vs)

def depthOfEntries (leaf : Nat) : List (Text × Value) → Nat
  | [] => 0
  | (_, v) :: es => max (depth leaf v) (depthOfEntries leaf es)

end

/-- The field of a record; absent in any other value. -/
def field? (v : Value) (key : Text) : Option Value :=
  match v with
  | record entries => (entries.find? (·.1 = key)).map (·.2)
  | _ => none

end Value

end NodeScript
