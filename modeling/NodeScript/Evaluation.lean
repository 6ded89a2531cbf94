import NodeScript.Loop
import NodeScript.Operation
import NodeScript.Trace

/-!
Evaluation of data pins. The value of an output is computed on demand from the values that flow
into its node, which are gathered with an explicit stack of frames. Results are kept for the
current generation; a new generation begins whenever the state that they depend on has changed.
The outputs that show that state itself, variables and loop indices, are read afresh every time.
-/

namespace NodeScript.Evaluation

/-- What an evaluation looks at and does not change. -/
structure Scene where
  graph : Graph
  bindings : Variables
  loops : Loops
  memo : Bool := true

structure State where
  generation : Nat := 0
  /-- Results with the generation they were computed in. -/
  cache : OrderedMap PinKey (Nat × Value) := {}
  inProgress : List Text := []
  cacheHits : Nat := 0
  generator : Generator
  trace : Trace := {}

namespace State

/-- Begin a new generation. -/
def bump (s : State) : State := { s with generation := s.generation + 1 }

def mark (s : State) (id : Text) : State := { s with inProgress := id :: s.inProgress }

def unmark (s : State) (id : Text) : State :=
  { s with inProgress := s.inProgress.filter (· ≠ id) }

def warn (s : State) (node : Node) (message : Text) : State :=
  { s with trace := s.trace.warn node message }

def cached? (s : State) (key : PinKey) : Option Value :=
  match s.cache.get? key with
  | some (generation, v) => if generation = s.generation then some v else none
  | none => none

def store (s : State) (key : PinKey) (v : Value) : State :=
  { s with cache := s.cache.insert key (s.generation, v) }

end State

/-- The property that an unwired input falls back to, or no value. -/
def fallback (node : Node) (label : Text) : Value :=
  match node.kind.template.fallback? label with
  | some property => (node.properties.get? property).getD .null
  | none => .null

/-- What is known of an output before its operation is run. -/
inductive Readiness
  | known (v : Value)
  | failed (f : Fault)
  | due

def readVariable (scene : Scene) (node : Node) : Readiness :=
  match (node.properties.get? "name").getD .null with
  | .null => .known .null
  | name =>
    match name.plain with
    | .ok name => .known ((scene.bindings.get? name).getD .null)
    | .error f => .failed f

def cycleWarning : Text := "has a circular data dependency. Returning no value."

/-- Look at an output without running an operation. -/
def ready (scene : Scene) (s : State) (node : Node) (pin : Pin) : Readiness × State :=
  if pin.isExec || !node.kind.isData then (.known .null, s)
  else
    match node.kind with
    | .getVariable => (readVariable scene node, s)
    | .forLoop => (.known (.int (scene.loops.currentIndex node.id)), s)
    | _ =>
      match if scene.memo then s.cached? (node.id, pin.id) else none with
      | some v => (.known v, { s with cacheHits := s.cacheHits + 1 })
      | none =>
        if s.inProgress.contains node.id then (.known .null, s.warn node cycleWarning)
        else (.due, s)

structure Frame where
  node : Node
  pin : Pin
  pending : List Pin
  inputs : Inputs
  /-- The label of the input that the frame above is resolving. -/
  waiting : Text := ""

namespace Frame

def start (node : Node) (pin : Pin) : Frame :=
  { node, pin
    pending := node.dataInputs
    inputs := ⟨[(Inputs.propertiesLabel, .record node.properties.entries)]⟩ }

def bind (f : Frame) (label : Text) (v : Value) : Frame :=
  { f with inputs := f.inputs.insert label v }

end Frame

/-- Run the operation of a frame whose inputs are complete. A warning leaves a line in the trace
and its fallback as the result. -/
def compute (s : State) (f : Frame) : Except Fault Value × State :=
  let s := s.unmark f.node.id
  let key := (f.node.id, f.pin.id)
  match f.node.kind.operation? with
  | none => (.ok .null, s)
  | some operation =>
    match operation f.inputs s.generator with
    | .ok (v, generator) => (.ok v, ({ s with generator }).store key v)
    | .error (.warning message v) => (.ok v, (s.warn f.node message).store key v)
    | .error (.fault fault) => (.error fault, s)

inductive Progress
  | running (s : State) (top : Frame) (below : List Frame)
  | finished (result : Except Fault Value) (s : State)

/-- Give up: no node of the stack stays in progress. -/
def abandon (s : State) (fault : Fault) (stack : List Frame) : Progress :=
  .finished (.error fault) (stack.foldl (fun s f => s.unmark f.node.id) s)

/-- Resolve the next input of the topmost frame, or run its operation if there is none. -/
def step (scene : Scene) (s : State) (top : Frame) (below : List Frame) : Progress :=
  match top.pending with
  | input :: pending =>
    let top := { top with pending }
    match scene.graph.incoming? top.node.id input.id with
    | none => .running s (top.bind input.label (fallback top.node input.label)) below
    | some wire =>
      match scene.graph.source? wire with
      | none => .running s (top.bind input.label .null) below
      | some (source, output) =>
        match ready scene s source output with
        | (.known v, s) => .running s (top.bind input.label v) below
        | (.failed fault, s) => abandon s fault (top :: below)
        | (.due, s) =>
          .running (s.mark source.id) (.start source output)
            ({ top with waiting := input.label } :: below)
  | [] =>
    match compute s top with
    | (.error fault, s) => abandon s fault below
    | (.ok v, s) =>
      match below with
      | [] => .finished (.ok v) s
      | parent :: below => .running s (parent.bind parent.waiting v) below

def loop (scene : Scene) : Nat → State → Frame → List Frame → Except Fault Value × State
  | 0, s, _, _ => (.ok .null, s)
  | fuel + 1, s, top, below =>
    match step scene s top below with
    | .running s top below => loop scene fuel s top below
    | .finished result s => (result, s)

/-- A bound on the steps of one evaluation. No node is on the stack twice, so the stack is at most
as high as the graph has nodes, and each frame opens at most one frame for each of its inputs. -/
def stepBound (g : Graph) : Nat :=
  Nat.pow ((g.nodes.map fun n => n.inputs.length).foldl max 0 + 2) (g.size + 1)

def output (scene : Scene) (s : State) (node : Node) (pin : Pin) : Except Fault Value × State :=
  match ready scene s node pin with
  | (.known v, s) => (.ok v, s)
  | (.failed fault, s) => (.error fault, s)
  | (.due, s) => loop scene (stepBound scene.graph) (s.mark node.id) (.start node pin) []

def input (scene : Scene) (s : State) (node : Node) (pin : Pin) : Except Fault Value × State :=
  match scene.graph.incoming? node.id pin.id with
  | none => (.ok (fallback node pin.label), s)
  | some wire =>
    match scene.graph.source? wire with
    | none => (.ok .null, s)
    | some (source, out) => output scene s source out

/-- The value of a node's input by label; a missing pin is like an unwired one. -/
def inputValue (scene : Scene) (s : State) (node : Node) (label : Text) :
    Except Fault Value × State :=
  match node.inputPin? label with
  | none => (.ok (fallback node label), s)
  | some pin => input scene s node pin

/-- The value at a pin, given by identifiers. Outputs are looked for first. -/
def evaluate (scene : Scene) (s : State) (nodeId pinId : Text) : Except Fault Value × State :=
  match scene.graph.node? nodeId with
  | none => (.ok .null, s)
  | some node =>
    match node.outputs.find? (·.id = pinId) with
    | some pin => output scene s node pin
    | none =>
      match node.inputs.find? (·.id = pinId) with
      | some pin => input scene s node pin
      | none => (.ok .null, s)

end NodeScript.Evaluation
