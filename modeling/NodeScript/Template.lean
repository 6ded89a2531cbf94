import NodeScript.OrderedMap
import NodeScript.Value.Basic

namespace NodeScript

structure PinShape where
  label : Text
  type : DataType
  deriving DecidableEq, Repr

structure Template where
  title : Text
  inputs : List PinShape := []
  outputs : List PinShape := []
  properties : OrderedMap Text Value := {}
  /-- From the label of an input to the property that it falls back to. -/
  fallbacks : List (Text × Text) := []

namespace Template

def isExec (t : Template) : Bool := (t.inputs ++ t.outputs).any (·.type = .exec)

def isData (t : Template) : Bool := t.outputs.any (·.type ≠ .exec)

def fallback? (t : Template) (label : Text) : Option Text :=
  (t.fallbacks.find? (·.1 = label)).map (·.2)

def execPin : PinShape := ⟨"", .exec⟩

def flow (title : Text) (inputs outputs : List PinShape)
    (properties : List (Text × Value) := []) (fallbacks : List (Text × Text) := []) :
    Template :=
  { title, inputs, outputs, properties := ⟨properties⟩, fallbacks }

def literal (title : Text) (type : DataType) (default : Value) : Template :=
  { title, outputs := [⟨"Value", type⟩], properties := ⟨[("value", default)]⟩ }

/-- An operation on operands of one type. -/
def operation (title : Text) (labels : List Text) (operand result : DataType) : Template :=
  { title, inputs := labels.map (⟨·, operand⟩), outputs := [⟨"Result", result⟩] }

def binary (title : Text) : DataType → DataType → Template := operation title ["A", "B"]

def unary (title : Text) : DataType → DataType → Template := operation title ["Value"]

end Template

open Template in
def NodeKind.template : NodeKind → Template
  | beginPlay => flow "Begin Play" [] [execPin]
  | branch =>
    flow "Branch" [execPin, ⟨"Condition", .boolean⟩] [⟨"True", .exec⟩, ⟨"False", .exec⟩]
  | sequence => flow "Sequence" [execPin] [⟨"Then 0", .exec⟩, ⟨"Then 1", .exec⟩]
  | forLoop =>
    flow "For Loop"
      [execPin, ⟨"Start", .integer⟩, ⟨"End", .integer⟩, ⟨"Step", .integer⟩]
      [⟨"Loop Body", .exec⟩, ⟨"Index", .integer⟩, ⟨"Completed", .exec⟩]
      [("start", .int 0), ("end", .int 10), ("step", .int 1)]
      [("Start", "start"), ("End", "end"), ("Step", "step")]
  | whileLoop =>
    flow "While Loop" [execPin, ⟨"Condition", .boolean⟩]
      [⟨"Loop Body", .exec⟩, ⟨"Completed", .exec⟩]
  | printString =>
    flow "Print String" [execPin, ⟨"In String", .string⟩] [execPin]
      [("text", .text "Hello World")] [("In String", "text")]
  | setVariable =>
    flow "Set Variable" [execPin, ⟨"Value", .any⟩] [execPin] [("name", .text "myVar")]
  | getVariable => flow "Get Variable" [] [⟨"Value", .any⟩] [("name", .text "myVar")]
  | clearVariable => flow "Clear Variable" [execPin] [execPin] [("name", .text "myVar")]
  | stringLiteral => literal "String Literal" .string (.text "")
  | integerLiteral => literal "Integer Literal" .integer (.int 0)
  | floatLiteral => literal "Float Literal" .float (.float 0)
  | booleanLiteral => literal "Boolean Literal" .boolean (.bool false)
  | addInteger => binary "Add Integer (+)" .integer .integer
  | subtractInteger => binary "Subtract Integer (-)" .integer .integer
  | multiplyInteger => binary "Multiply Integer (*)" .integer .integer
  | divideInteger => binary "Divide Integer (/)" .integer .integer
  | moduloInteger => binary "Modulo Integer (%)" .integer .integer
  | clampInteger => operation "Clamp Integer" ["Value", "Min", "Max"] .integer .integer
  | randomInteger => operation "Random Integer" ["Min", "Max"] .integer .integer
  | absoluteInteger => unary "Absolute Integer" .integer .integer
  | minInteger => binary "Min Integer" .integer .integer
  | maxInteger => binary "Max Integer" .integer .integer
  | addFloat => binary "Add Float (+)" .float .float
  | subtractFloat => binary "Subtract Float (-)" .float .float
  | multiplyFloat => binary "Multiply Float (*)" .float .float
  | divideFloat => binary "Divide Float (/)" .float .float
  | clampFloat => operation "Clamp Float" ["Value", "Min", "Max"] .float .float
  | randomFloat => operation "Random Float" ["Min", "Max"] .float .float
  | absoluteFloat => unary "Absolute Float" .float .float
  | minFloat => binary "Min Float" .float .float
  | maxFloat => binary "Max Float" .float .float
  | powerFloat => operation "Power (^)" ["Base", "Exponent"] .float .float
  | squareRootFloat => unary "Square Root" .float .float
  | floorFloat => unary "Floor" .float .integer
  | ceilFloat => unary "Ceil" .float .integer
  | roundFloat => unary "Round" .float .integer
  | lerpFloat => operation "Lerp" ["A", "B", "Alpha"] .float .float
  | greaterThanInteger => binary "Greater Than (>)" .integer .boolean
  | lessThanInteger => binary "Less Than (<)" .integer .boolean
  | equalsInteger => binary "Equals (==)" .integer .boolean
  | greaterThanFloat => binary "Greater Than Float (>)" .float .boolean
  | lessThanFloat => binary "Less Than Float (<)" .float .boolean
  | equalsFloat => binary "Equals Float (==)" .float .boolean
  | concatString => binary "Concatenate" .string .string
  | stringLength => unary "String Length" .string .integer
  | toString => unary "To String" .any .string
  | booleanNot => unary "NOT" .boolean .boolean
  | intToFloat => unary "Integer To Float" .integer .float
  | floatToInt => unary "Float To Integer" .float .integer

def NodeKind.isExec (k : NodeKind) : Bool := k.template.isExec

def NodeKind.isData (k : NodeKind) : Bool := k.template.isData

end NodeScript
