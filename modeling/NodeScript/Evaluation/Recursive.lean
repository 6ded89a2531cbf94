import NodeScript.Evaluation

/-!
Evaluation by plain recursion over the wires: mark the node, evaluate what flows into its inputs
in order, unmark it, run its operation. It looks at an output in the same way as the evaluation
with a stack, and records the same warnings and results.
-/

namespace NodeScript.Evaluation.Recursive

def gather (scene : Scene) (eval : State → Node → Pin → Option (Except Fault Value × State))
    (node : Node) : List Pin → Inputs → State → Option (Except Fault Inputs × State)
  | [], inputs, s => some (.ok inputs, s)
  | pin :: pins, inputs, s =>
    match scene.graph.incoming? node.id pin.id with
    | none => gather scene eval node pins (inputs.insert pin.label (fallback node pin.label)) s
    | some wire =>
      match scene.graph.source? wire with
      | none => gather scene eval node pins (inputs.insert pin.label .null) s
      | some (source, out) =>
        match eval s source out with
        | none => none
        | some (.ok v, s) => gather scene eval node pins (inputs.insert pin.label v) s
        | some (.error fault, s) => some (.error fault, s)

/-- Run the operation of a node whose inputs have been gathered; the node is no longer in progress,
also where gathering them failed. -/
def complete (node : Node) (pin : Pin) : Except Fault Inputs × State → Except Fault Value × State
  | (.ok inputs, s) => compute s { Frame.start node pin with pending := [], inputs }
  | (.error fault, s) => (.error fault, s.unmark node.id)

/-- The value of an output, or `none` if the recursion goes deeper than `depth`. -/
def output (scene : Scene) : Nat → State → Node → Pin → Option (Except Fault Value × State)
  | 0, _, _, _ => none
  | depth + 1, s, node, pin =>
    match ready scene s node pin with
    | (.known v, s) => some (.ok v, s)
    | (.failed fault, s) => some (.error fault, s)
    | (.due, s) =>
      let frame := Frame.start node pin
      (gather scene (output scene depth) node frame.pending frame.inputs (s.mark node.id)).map
        (complete node pin)

/-- No node is evaluated inside itself, so the recursion is no deeper than the graph has nodes. -/
def depthBound (g : Graph) : Nat := g.size + 1

end NodeScript.Evaluation.Recursive
