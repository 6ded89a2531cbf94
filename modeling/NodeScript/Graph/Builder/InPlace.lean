import NodeScript.Graph.Builder

/-!
Building in place: the steps of a builder as commands on one builder, which is changed as they go.
An identifier that has been drawn stays drawn and an entry that has been made stays made, also where
the command is refused after that.
-/

namespace NodeScript.Builder.InPlace

/-- A command changes the builder, also where it is refused. -/
abbrev Command := ExceptT BuildError (StateM Builder)

def draw (stem : Text) : Command Text := do
  let id := (← get).nextId stem
  modify fun b => { b with next := b.next + 1 }
  return id

def add (kind : NodeKind) (options : NodeOptions) : Command Node := do
  let node := makeNode kind (← draw (← get).idPrefix) options
  modify fun b => { b with nodes := b.nodes.insert node.id node }
  return node

def pin (nodeId : Text) (direction : Direction) (label : Text) : Command Pin := do
  (← get).pin nodeId direction label

def connect (source : Node) (sourceLabel : Text) (target : Node) (targetLabel : Text) :
    Command Wire := do
  let fromPin ← pin source.id .output sourceLabel
  let toPin ← pin target.id .input targetLabel
  if !toPin.isExec && (← get).wires.any (·.target = (target.id, toPin.id)) then
    throw (.inputTaken targetLabel target.displayName)
  let wire : Wire :=
    { id := ← draw "wire"
      fromNode := source.id
      fromPin := fromPin.id
      toNode := target.id
      toPin := toPin.id
      type := if fromPin.type = .any then toPin.type else fromPin.type }
  modify fun b => { b with wires := b.wires ++ [wire] }
  return wire

def disconnect (wireId : Text) : Command Unit := modify (·.disconnect wireId)

def remove (nodeId : Text) : Command Unit := modify (·.remove nodeId)

def duplicate (nodeId : Text) (offset : Value) : Command Node := do
  match (← get).nodes.get? nodeId with
  | none => throw (.unknownNode nodeId)
  | some model =>
    let x ← ((model.x.plus offset).mapError .fault : Except BuildError Value)
    let y ← ((model.y.plus offset).mapError .fault : Except BuildError Value)
    let properties ←
      ((copied model.properties).mapError .fault : Except BuildError (List (Text × Value)))
    add model.kind
      { x, y, properties
        title := some model.title
        comment := model.comment }

end NodeScript.Builder.InPlace
