import NodeScript.Graph.Basic

/-!
Building graphs by hand, the way an editor does: nodes are made from the template of their kind,
wires join pins by label, and no data input takes a second wire. Nodes and wires draw their
identifiers from one counter, which only successful steps advance.
-/

namespace NodeScript

inductive BuildError
  | unknownNode (id : Text)
  | noPin (nodeName : Text) (direction : Direction) (label : Text)
  | inputTaken (label nodeName : Text)
  | fault (f : Fault)
  deriving DecidableEq, Repr

namespace BuildError

def side : Direction → String
  | .input => "input"
  | .output => "output"

def message : BuildError → Text
  | unknownNode id => "Unknown node '" ++ id ++ "'"
  | noPin nodeName direction label =>
    "Node '" ++ nodeName ++ s!"' has no {side direction} pin labelled '" ++ label ++ "'"
  | inputTaken label nodeName =>
    "Input pin '" ++ label ++ "' of '" ++ nodeName ++ "' already has a wire"
  | fault f => f.message

end BuildError

structure NodeOptions where
  x : Value := .float 0
  y : Value := .float 0
  properties : List (Text × Value) := []
  title : Option Text := none
  comment : Text := ""

/-- The pins of a new node. A pin without a label is named by its data type. -/
def makePins (nodeId : Text) (direction : Direction) (shapes : List PinShape) : List Pin :=
  shapes.zipIdx.map fun (s, i) =>
    let label : Text := if s.label = "" then s.type.name else s.label
    { id := nodeId ++ s!"_{direction.name}_" ++ label ++ s!"_{i}"
      nodeId, label := s.label, type := s.type, direction }

def makeNode (kind : NodeKind) (id : Text) (options : NodeOptions) : Node :=
  let t := kind.template
  { id, kind
    inputs := makePins id .input t.inputs
    outputs := makePins id .output t.outputs
    properties := t.properties.insertMany options.properties
    title := options.title.getD t.title
    comment := options.comment
    x := options.x
    y := options.y }

structure Builder where
  idPrefix : Text := "node"
  next : Nat := 1
  nodes : OrderedMap Text Node := {}
  wires : List Wire := []

namespace Builder

def nextId (b : Builder) (stem : Text) : Text := stem ++ s!"_{b.next}"

def add (b : Builder) (kind : NodeKind) (options : NodeOptions) : Node × Builder :=
  let node := makeNode kind (b.nextId b.idPrefix) options
  (node, { b with next := b.next + 1, nodes := b.nodes.insert node.id node })

/-- The pin with a label on the builder's own node of that identifier. -/
def pin (b : Builder) (nodeId : Text) (direction : Direction) (label : Text) :
    Except BuildError Pin :=
  match b.nodes.get? nodeId with
  | none => .error (.unknownNode nodeId)
  | some node =>
    let found :=
      match direction with
      | .output => node.outputPin? label
      | .input => node.inputPin? label
    match found with
    | some p => .ok p
    | none => .error (.noPin node.displayName direction label)

/-- Wire an output of `source` to an input of `target`. The wire takes the type of the output, or
of the input if the output takes any. -/
def connect (b : Builder) (source : Node) (sourceLabel : Text) (target : Node)
    (targetLabel : Text) : Except BuildError (Wire × Builder) := do
  let fromPin ← b.pin source.id .output sourceLabel
  let toPin ← b.pin target.id .input targetLabel
  if !toPin.isExec && b.wires.any (·.target = (target.id, toPin.id)) then
    throw (.inputTaken targetLabel target.displayName)
  let wire : Wire :=
    { id := b.nextId "wire"
      fromNode := source.id
      fromPin := fromPin.id
      toNode := target.id
      toPin := toPin.id
      type := if fromPin.type = .any then toPin.type else fromPin.type }
  return (wire, { b with next := b.next + 1, wires := b.wires ++ [wire] })

def disconnect (b : Builder) (wireId : Text) : Builder :=
  { b with wires := b.wires.filter (·.id ≠ wireId) }

def remove (b : Builder) (nodeId : Text) : Builder :=
  { b with
    nodes := b.nodes.erase nodeId
    wires := b.wires.filter fun w => w.fromNode ≠ nodeId ∧ w.toNode ≠ nodeId }

def defaultOffset : Value := .float 40

/-- The properties of a copy. To go down a level takes two calls. -/
def copied (m : OrderedMap Text Value) : Except Fault (List (Text × Value)) :=
  if 2 * (Value.record m.entries).depth 1 ≤ Value.depthLimit then .ok m.entries
  else .error .copyTooDeep

theorem copied_eq_ok_iff {m : OrderedMap Text Value} {entries : List (Text × Value)} :
    copied m = .ok entries ↔
      entries = m.entries ∧ 2 * (Value.record m.entries).depth 1 ≤ Value.depthLimit := by
  unfold copied
  split <;> simp [*, eq_comm]

def duplicate (b : Builder) (nodeId : Text) (offset : Value := defaultOffset) :
    Except BuildError (Node × Builder) := do
  match b.nodes.get? nodeId with
  | none => throw (.unknownNode nodeId)
  | some model =>
    let x ← (model.x.plus offset).mapError .fault
    let y ← (model.y.plus offset).mapError .fault
    let properties ← (copied model.properties).mapError .fault
    return b.add model.kind
      { x, y, properties
        title := some model.title
        comment := model.comment }

def build (b : Builder) : Graph := .ofLists b.nodes.values b.wires

end Builder

end NodeScript
