import NodeScript.Template
import NodeScript.Value.Number

/-!
Graphs of nodes and wires. A graph holds its nodes by identifier and its wires by both ends, so
that a run finds the wire into an input and the wires out of an output without a search through
all wires. The first node with an identifier and the first wire into an input are kept.
-/

namespace NodeScript

structure Pin where
  id : Text
  nodeId : Text
  label : Text
  type : DataType
  direction : Direction
  deriving DecidableEq, Repr

def Pin.isExec (p : Pin) : Bool := p.type = .exec

structure Node where
  id : Text
  kind : NodeKind
  inputs : List Pin := []
  outputs : List Pin := []
  properties : OrderedMap Text Value := {}
  title : Text := ""
  comment : Text := ""
  x : Value := .float 0
  y : Value := .float 0

namespace Node

/-- The name of a node in the trace: its title, or its kind if it has none. -/
def displayName (n : Node) : Text := if n.title = "" then n.kind.value else n.title

def inputPin? (n : Node) (label : Text) : Option Pin := n.inputs.find? (·.label = label)

def outputPin? (n : Node) (label : Text) : Option Pin := n.outputs.find? (·.label = label)

def execOutputs (n : Node) : List Pin := n.outputs.filter Pin.isExec

def execOutputsLabelled (n : Node) (label : Text) : List Pin :=
  n.execOutputs.filter (·.label = label)

def dataInputs (n : Node) : List Pin := n.inputs.filter (!·.isExec)

end Node

structure Wire where
  id : Text
  fromNode : Text
  fromPin : Text
  toNode : Text
  toPin : Text
  type : DataType := .any
  deriving DecidableEq, Repr

/-- A pin, named by its node and its own identifier. -/
abbrev PinKey := Text × Text

def Wire.source (w : Wire) : PinKey := (w.fromNode, w.fromPin)

def Wire.target (w : Wire) : PinKey := (w.toNode, w.toPin)

structure Graph where
  nodeIndex : OrderedMap Text Node
  wires : List Wire
  incoming : OrderedMap PinKey Wire := .firstBy Wire.target wires
  outgoing : OrderedMap PinKey (List Wire) := .groupBy Wire.source wires
  nodeIndex_keyedBy : nodeIndex.KeyedBy Node.id
  nodeIndex_nodup : nodeIndex.keys.Nodup
  incoming_eq : incoming = .firstBy Wire.target wires := by rfl
  outgoing_eq : outgoing = .groupBy Wire.source wires := by rfl

namespace Graph

def ofLists (nodes : List Node) (wires : List Wire) : Graph where
  nodeIndex := .firstBy Node.id nodes
  wires
  nodeIndex_keyedBy := OrderedMap.keyedBy_firstBy Node.id nodes
  nodeIndex_nodup := OrderedMap.nodup_keys_firstBy Node.id nodes

def nodes (g : Graph) : List Node := g.nodeIndex.values

theorem mem_of_mem_nodes_ofLists {nodes : List Node} {wires : List Wire} {n : Node}
    (h : n ∈ (ofLists nodes wires).nodes) : n ∈ nodes := by
  obtain ⟨e, he, rfl⟩ := List.mem_map.mp h
  exact OrderedMap.mem_of_mem_firstBy he

/-- A graph is determined by its nodes and wires. -/
theorem ofLists_nodes_wires (g : Graph) : ofLists g.nodes g.wires = g := by
  have hvalues : (OrderedMap.firstBy Node.id g.nodes).values = g.nodes :=
    OrderedMap.values_firstBy (g.nodeIndex_keyedBy.keys_eq ▸ g.nodeIndex_nodup)
  have hindex : OrderedMap.firstBy Node.id g.nodes = g.nodeIndex := by
    have h := (OrderedMap.keyedBy_firstBy Node.id g.nodes).entries_eq
    rw [hvalues, nodes, ← g.nodeIndex_keyedBy.entries_eq] at h
    exact congrArg OrderedMap.mk h
  cases g with
  | mk nodeIndex wires incoming outgoing hk hn hi ho =>
    subst hi ho
    simp only [ofLists, nodes] at hindex ⊢
    congr

def size (g : Graph) : Nat := g.nodeIndex.size

def node? (g : Graph) (id : Text) : Option Node := g.nodeIndex.get? id

def nodesOfKind (g : Graph) (k : NodeKind) : List Node := g.nodes.filter (·.kind = k)

def incoming? (g : Graph) (nodeId pinId : Text) : Option Wire := g.incoming.get? (nodeId, pinId)

def outgoingFrom (g : Graph) (nodeId pinId : Text) : List Wire :=
  (g.outgoing.get? (nodeId, pinId)).getD []

/-- The node and the output that a wire comes from, if both exist. -/
def source? (g : Graph) (w : Wire) : Option (Node × Pin) := do
  let n ← g.node? w.fromNode
  let p ← n.outputs.find? (·.id = w.fromPin)
  return (n, p)

def targets (g : Graph) (n : Node) (p : Pin) : List Node :=
  (g.outgoingFrom n.id p.id).filterMap fun w => g.node? w.toNode

/-- The nodes behind some of a node's outputs, in the order of pins and of wires. -/
def successors (g : Graph) (n : Node) (pins : List Pin) : List Node := pins.flatMap (g.targets n)

def follow (g : Graph) (n : Node) (label : Text) : List Node :=
  g.successors n (n.execOutputsLabelled label)

end Graph

end NodeScript
