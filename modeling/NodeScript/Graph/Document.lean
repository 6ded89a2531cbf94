import NodeScript.Graph.Basic
import NodeScript.Graph.Tag

/-!
Graphs as documents. Reading is permissive: fields that are not known are ignored, entries without
an identifier or without both ends are skipped, and keys are accepted in camel case and in snake
case. Writing a graph gives the document that an editor would store.
-/

namespace NodeScript.Document

/-- The first of the keys that is present and not null. -/
def first (v : Value) : List Text → Value
  | [] => .null
  | key :: keys =>
    match v.field? key with
    | none | some .null => first v keys
    | some found => found

def field (v : Value) (key : Text) : Value := (v.field? key).getD .null

/-- The text of a field; an empty value counts as none. -/
def textOf (v : Value) : Except LoadError Text := v.plainOrEmpty.mapError .fault

def idOf (v : Value) : Except LoadError Text := (textOf v).map Text.strip

/-- The text of a label; a missing one is empty. -/
def labelOf : Value → Except LoadError Text
  | .null => .ok ""
  | v => v.plain.mapError .fault

/-- A coordinate; what is no number counts as zero. -/
def coordinate (v : Value) : Except LoadError Value :=
  match v.requireFloat with
  | .ok x => .ok (.float x)
  | .error .integerTooLarge => .error (.fault .integerTooLarge)
  | .error _ => .ok (.float 0)

/-- The items of a list that can be read, in order. -/
def collect {α β : Type} (read : α → Except LoadError (Option β)) :
    List α → Except LoadError (List β)
  | [] => .ok []
  | a :: as => do
    let b ← read a
    let bs ← collect read as
    return b.toList ++ bs

def isObject : Value → Bool
  | .record _ => true
  | _ => false

def readPin (nodeId : Text) (side : Direction) (v : Value) : Except LoadError (Option Pin) := do
  if !isObject v then return none
  let id ← idOf (field v "id")
  if id = "" then return none
  let owner ← textOf (first v ["nodeId", "node_id"])
  let label ← labelOf (field v "label")
  let type ← Tag.resolve DataType (some .any) (first v ["dataType", "data_type"])
  let direction ← Tag.resolve Direction (some side) (field v "direction")
  return some { id, nodeId := if owner = "" then nodeId else owner, label, type, direction }

def readPins (nodeId : Text) (side : Direction) : Value → Except LoadError (List Pin)
  | .list items => collect (readPin nodeId side) items
  | _ => .ok []

def propertiesOf : Value → OrderedMap Text Value
  | .record entries => ⟨entries⟩
  | _ => {}

def readNode (v : Value) : Except LoadError (Option Node) := do
  if !isObject v then return none
  let id ← idOf (field v "id")
  if id = "" then return none
  let kind ← Tag.resolve NodeKind none (first v ["type", "kind"])
  let inputs ← readPins id .input (field v "inputs")
  let outputs ← readPins id .output (field v "outputs")
  let properties := propertiesOf (field v "properties")
  let title ← textOf (field v "title")
  let comment ← textOf (field v "comment")
  let x ← coordinate (field v "x")
  let y ← coordinate (field v "y")
  return some { id, kind, inputs, outputs, properties, title, comment, x, y }

/-- Read the wire at a position of the list; the position names a wire without an identifier. -/
def readWire : Value × Nat → Except LoadError (Option Wire)
  | (v, position) => do
    if !isObject v then return none
    let fromNode ← idOf (first v ["fromNodeId", "from_node_id"])
    let fromPin ← idOf (first v ["fromPinId", "from_pin_id"])
    let toNode ← idOf (first v ["toNodeId", "to_node_id"])
    let toPin ← idOf (first v ["toPinId", "to_pin_id"])
    if fromNode = "" ∨ fromPin = "" ∨ toNode = "" ∨ toPin = "" then return none
    let id ← textOf (field v "id")
    let type ← Tag.resolve DataType (some .any) (first v ["dataType", "data_type"])
    return some
      { id := if id = "" then s!"wire-{position}" else id
        fromNode, fromPin, toNode, toPin, type }

def listOr (error : LoadError) : Value → Except LoadError (List Value)
  | .null => .ok []
  | .list items => .ok items
  | _ => .error error

def read (v : Value) : Except LoadError Graph := do
  if !isObject v then throw .notObject
  let nodeItems ← listOr .nodesNotList (field v "nodes")
  let wireItems ← listOr .wiresNotList ((v.field? "wires").getD (field v "edges"))
  let nodes ← collect readNode nodeItems
  let wires ← collect readWire wireItems.zipIdx
  return .ofLists nodes wires

inductive KeyStyle
  | camel
  | snake
  deriving DecidableEq, Repr

def KeyStyle.choose (style : KeyStyle) (camel snake : Text) : Text :=
  match style with
  | .camel => camel
  | .snake => snake

def writePin (style : KeyStyle) (p : Pin) : Value :=
  .record
    [("id", .text p.id),
     (style.choose "nodeId" "node_id", .text p.nodeId),
     ("label", .text p.label),
     (style.choose "dataType" "data_type", .text p.type.name),
     ("direction", .text p.direction.name)]

def writeNode (style : KeyStyle) (n : Node) : Value :=
  .record
    [("id", .text n.id),
     ("type", .text n.kind.value),
     ("title", .text n.title),
     ("comment", .text n.comment),
     ("x", n.x),
     ("y", n.y),
     ("inputs", .list (n.inputs.map (writePin style))),
     ("outputs", .list (n.outputs.map (writePin style))),
     ("properties", .record n.properties.entries)]

def writeWire (style : KeyStyle) (w : Wire) : Value :=
  .record
    [("id", .text w.id),
     (style.choose "fromNodeId" "from_node_id", .text w.fromNode),
     (style.choose "fromPinId" "from_pin_id", .text w.fromPin),
     (style.choose "toNodeId" "to_node_id", .text w.toNode),
     (style.choose "toPinId" "to_pin_id", .text w.toPin),
     (style.choose "dataType" "data_type", .text w.type.name)]

def write (style : KeyStyle) (g : Graph) : Value :=
  .record
    [("nodes", .list (g.nodes.map (writeNode style))),
     ("wires", .list (g.wires.map (writeWire style)))]

end NodeScript.Document
