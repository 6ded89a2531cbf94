/-!
The closed vocabularies of a script: the kinds of nodes, the data types of pins and the two
directions of a pin. Each member has a name in capitals and a value that documents use.
-/

namespace NodeScript

inductive DataType
  | exec | string | integer | float | boolean | any
  deriving DecidableEq, Repr

inductive Direction
  | input | output
  deriving DecidableEq, Repr

inductive NodeKind
  | beginPlay | branch | sequence | forLoop | whileLoop | printString | setVariable
  | getVariable | clearVariable | stringLiteral | integerLiteral | floatLiteral
  | booleanLiteral | addInteger | subtractInteger | multiplyInteger | divideInteger
  | moduloInteger | clampInteger | randomInteger | absoluteInteger | minInteger | maxInteger
  | addFloat | subtractFloat | multiplyFloat | divideFloat | clampFloat | randomFloat
  | absoluteFloat | minFloat | maxFloat | powerFloat | squareRootFloat | floorFloat | ceilFloat
  | roundFloat | lerpFloat | greaterThanInteger | lessThanInteger | equalsInteger
  | greaterThanFloat | lessThanFloat | equalsFloat | concatString | stringLength | toString
  | booleanNot | intToFloat | floatToInt
  deriving DecidableEq, Repr

class Vocabulary (α : Type) where
  title : String
  all : List α
  name : α → String
  value : α → String

namespace DataType

def all : List DataType := [exec, string, integer, float, boolean, any]

def name : DataType → String
  | exec => "EXEC"
  | string => "STRING"
  | integer => "INTEGER"
  | float => "FLOAT"
  | boolean => "BOOLEAN"
  | any => "ANY"

instance : Vocabulary DataType := ⟨"DataType", all, name, name⟩

end DataType

namespace Direction

def all : List Direction := [input, output]

def name : Direction → String
  | input => "INPUT"
  | output => "OUTPUT"

instance : Vocabulary Direction := ⟨"PinDirection", all, name, name⟩

end Direction

namespace NodeKind

/-- All kinds, in the order in which an editor offers them. -/
def all : List NodeKind :=
  [beginPlay, branch, sequence, forLoop, whileLoop, printString, setVariable, getVariable,
   clearVariable, stringLiteral, integerLiteral, floatLiteral, booleanLiteral, addInteger,
   subtractInteger, multiplyInteger, divideInteger, moduloInteger, clampInteger, randomInteger,
   absoluteInteger, minInteger, maxInteger, addFloat, subtractFloat, multiplyFloat, divideFloat,
   clampFloat, randomFloat, absoluteFloat, minFloat, maxFloat, powerFloat, squareRootFloat,
   floorFloat, ceilFloat, roundFloat, lerpFloat, greaterThanInteger, lessThanInteger,
   equalsInteger, greaterThanFloat, lessThanFloat, equalsFloat, concatString, stringLength,
   toString, booleanNot, intToFloat, floatToInt]

def name : NodeKind → String
  | beginPlay => "BEGIN_PLAY"
  | branch => "BRANCH"
  | sequence => "SEQUENCE"
  | forLoop => "FOR_LOOP"
  | whileLoop => "WHILE_LOOP"
  | printString => "PRINT_STRING"
  | setVariable => "SET_VARIABLE"
  | getVariable => "GET_VARIABLE"
  | clearVariable => "CLEAR_VARIABLE"
  | stringLiteral => "STRING_LITERAL"
  | integerLiteral => "INTEGER_LITERAL"
  | floatLiteral => "FLOAT_LITERAL"
  | booleanLiteral => "BOOLEAN_LITERAL"
  | addInteger => "ADD_INTEGER"
  | subtractInteger => "SUBTRACT_INTEGER"
  | multiplyInteger => "MULTIPLY_INTEGER"
  | divideInteger => "DIVIDE_INTEGER"
  | moduloInteger => "MODULO_INTEGER"
  | clampInteger => "CLAMP_INTEGER"
  | randomInteger => "RANDOM_INTEGER"
  | absoluteInteger => "ABSOLUTE_INTEGER"
  | minInteger => "MIN_INTEGER"
  | maxInteger => "MAX_INTEGER"
  | addFloat => "ADD_FLOAT"
  | subtractFloat => "SUBTRACT_FLOAT"
  | multiplyFloat => "MULTIPLY_FLOAT"
  | divideFloat => "DIVIDE_FLOAT"
  | clampFloat => "CLAMP_FLOAT"
  | randomFloat => "RANDOM_FLOAT"
  | absoluteFloat => "ABSOLUTE_FLOAT"
  | minFloat => "MIN_FLOAT"
  | maxFloat => "MAX_FLOAT"
  | powerFloat => "POWER_FLOAT"
  | squareRootFloat => "SQUARE_ROOT_FLOAT"
  | floorFloat => "FLOOR_FLOAT"
  | ceilFloat => "CEIL_FLOAT"
  | roundFloat => "ROUND_FLOAT"
  | lerpFloat => "LERP_FLOAT"
  | greaterThanInteger => "GREATER_THAN_INTEGER"
  | lessThanInteger => "LESS_THAN_INTEGER"
  | equalsInteger => "EQUALS_INTEGER"
  | greaterThanFloat => "GREATER_THAN_FLOAT"
  | lessThanFloat => "LESS_THAN_FLOAT"
  | equalsFloat => "EQUALS_FLOAT"
  | concatString => "CONCAT_STRING"
  | stringLength => "STRING_LENGTH"
  | toString => "TO_STRING"
  | booleanNot => "BOOLEAN_NOT"
  | intToFloat => "INT_TO_FLOAT"
  | floatToInt => "FLOAT_TO_INT"

def value : NodeKind → String
  | beginPlay => "BeginPlay"
  | branch => "Branch"
  | sequence => "Sequence"
  | forLoop => "ForLoop"
  | whileLoop => "WhileLoop"
  | printString => "PrintString"
  | setVariable => "SetVariable"
  | getVariable => "GetVariable"
  | clearVariable => "ClearVariable"
  | stringLiteral => "StringLiteral"
  | integerLiteral => "IntegerLiteral"
  | floatLiteral => "FloatLiteral"
  | booleanLiteral => "BooleanLiteral"
  | addInteger => "AddInteger"
  | subtractInteger => "SubtractInteger"
  | multiplyInteger => "MultiplyInteger"
  | divideInteger => "DivideInteger"
  | moduloInteger => "ModuloInteger"
  | clampInteger => "ClampInteger"
  | randomInteger => "RandomInteger"
  | absoluteInteger => "AbsoluteInteger"
  | minInteger => "MinInteger"
  | maxInteger => "MaxInteger"
  | addFloat => "AddFloat"
  | subtractFloat => "SubtractFloat"
  | multiplyFloat => "MultiplyFloat"
  | divideFloat => "DivideFloat"
  | clampFloat => "ClampFloat"
  | randomFloat => "RandomFloat"
  | absoluteFloat => "AbsoluteFloat"
  | minFloat => "MinFloat"
  | maxFloat => "MaxFloat"
  | powerFloat => "PowerFloat"
  | squareRootFloat => "SquareRootFloat"
  | floorFloat => "FloorFloat"
  | ceilFloat => "CeilFloat"
  | roundFloat => "RoundFloat"
  | lerpFloat => "LerpFloat"
  | greaterThanInteger => "GreaterThanInteger"
  | lessThanInteger => "LessThanInteger"
  | equalsInteger => "EqualsInteger"
  | greaterThanFloat => "GreaterThanFloat"
  | lessThanFloat => "LessThanFloat"
  | equalsFloat => "EqualsFloat"
  | concatString => "ConcatString"
  | stringLength => "StringLength"
  | toString => "ToString"
  | booleanNot => "BooleanNot"
  | intToFloat => "IntToFloat"
  | floatToInt => "FloatToInt"

instance : Vocabulary NodeKind := ⟨"NodeKind", all, name, value⟩

def ofValue? (s : String) : Option NodeKind := all.find? fun k => k.value = s

theorem mem_all (k : NodeKind) : k ∈ all := by cases k <;> decide

end NodeKind

/-- A member of one of the vocabularies, as a document in memory may hold it. -/
inductive Symbol
  | kind (k : NodeKind)
  | dataType (t : DataType)
  | direction (d : Direction)
  deriving DecidableEq, Repr

namespace Symbol

def value : Symbol → String
  | kind k => k.value
  | dataType t => t.name
  | direction d => d.name

def qualified : Symbol → String
  | kind k => s!"{Vocabulary.title NodeKind}.{k.name}"
  | dataType t => s!"{Vocabulary.title DataType}.{t.name}"
  | direction d => s!"{Vocabulary.title Direction}.{d.name}"

end Symbol

end NodeScript
