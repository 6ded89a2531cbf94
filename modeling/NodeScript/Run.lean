import NodeScript.Config
import NodeScript.Evaluation

/-!
Runs. A run visits nodes from a queue that begins with the entry node. A visit may print, set
variables or advance a loop, and queues the nodes that come next. Limits on the number of visits
and of iterations keep every run finite; a node that fails is reported and has no successors.
-/

namespace NodeScript.Run

structure State where
  bindings : Variables := {}
  loops : Loops := {}
  evaluation : Evaluation.State
  queue : List Node := []
  steps : Nat := 0

structure Setting where
  graph : Graph
  config : Config
  memo : Bool := true

/-- A behaviour changes the state, also where it fails. -/
abbrev Action := ExceptT Fault (StateM State)

def State.trace (s : State) : Trace := s.evaluation.trace

def State.scene (s : State) (setting : Setting) : Evaluation.Scene :=
  { graph := setting.graph, bindings := s.bindings, loops := s.loops, memo := setting.memo }

def modifyTrace (f : Trace → Trace) : Action Unit :=
  modify fun s => { s with evaluation := { s.evaluation with trace := f s.evaluation.trace } }

def bump : Action Unit := modify fun s => { s with evaluation := s.evaluation.bump }

def modifyLoops (f : Loops → Loops) : Action Unit := modify fun s => { s with loops := f s.loops }

def read (setting : Setting) (node : Node) (label : Text) : Action Value := fun s =>
  let (result, evaluation) := Evaluation.inputValue (s.scene setting) s.evaluation node label
  (result, { s with evaluation })

def readCondition (setting : Setting) (node : Node) : Action Bool := do
  let v ← read setting node "Condition"
  return v.isTruthy

/-- The name of the variable that a node acts on; a blank name is warned of. -/
def variableName (node : Node) : Action (Option Text) := do
  let missing : Action (Option Text) := do
    modifyTrace fun t => t.warn node "has no variable name. Skipping."
    return none
  match (node.properties.get? "name").getD .null with
  | .null => missing
  | name =>
    let name ← (name.plain : Except Fault Text)
    if Text.isBlankText name then missing else return some name

def loopBody : Text := "Loop Body"

def completed : Text := "Completed"

/-- The step that a value asks for: one if there is no value, and else an integer but not zero. -/
def givenStep? : Value → Option Int
  | .null => some 1
  | v => v.toInteger?.filter (· ≠ 0)

/-- The state of a counting loop that has not begun, or `none` if its bounds are no integers. -/
def beginLoop (setting : Setting) (node : Node) : Action (Option ForState) := do
  let rawStart ← read setting node "Start"
  let rawLast ← read setting node "End"
  match rawStart.toInteger?, rawLast.toInteger? with
  | some start, some last =>
    let rawStep ← read setting node "Step"
    match givenStep? rawStep with
    | some step => return some (.start start last step)
    | none =>
      let step : Int := if start ≤ last then 1 else -1
      let shown ← (rawStep.describe : Except Fault Text)
      modifyTrace fun t =>
        t.warn node
          ("Step must be a non-zero integer but received " ++ shown ++ s!". Using {step}.")
      return some (.start start last step)
  | _, _ =>
    let start ← (rawStart.describe : Except Fault Text)
    let last ← (rawLast.describe : Except Fault Text)
    modifyTrace fun t =>
      t.warn node
        ("received invalid Start/End values " ++ start ++ " and " ++ last ++ ". Skipping loop.")
    return none

/-- End a loop, or go through its body and come back. -/
def afterLoopStep (setting : Setting) (node : Node) (outcome : LoopStep) : Action (List Node) := do
  match outcome with
  | .body =>
    bump
    return setting.graph.follow node loopBody ++ [node]
  | .completed =>
    modifyLoops (·.finish node.id)
    return setting.graph.follow node completed
  | .aborted =>
    modifyLoops (·.finish node.id)
    let limit := setting.config.maxLoopIterations
    let shown ← (limit.plain : Except Fault Text)
    modifyTrace fun t => t.report (.loopLimit node limit shown)
    return setting.graph.follow node completed

def visitForLoop (setting : Setting) (node : Node) : Action (List Node) := do
  let state ←
    match (← get).loops.counting.get? node.id with
    | some state => pure (some state)
    | none =>
      match ← beginLoop setting node with
      | none => pure none
      | some state =>
        modifyLoops (·.startFor node.id state)
        pure (some state)
  match state with
  | none => return setting.graph.follow node completed
  | some state =>
    let (outcome, state) ← (state.advance setting.config.maxLoopIterations : Except Fault _)
    modifyLoops (·.startFor node.id state)
    afterLoopStep setting node outcome

def visitWhileLoop (setting : Setting) (node : Node) : Action (List Node) := do
  modifyLoops fun ls => ls.setWhile node.id (ls.iterations node.id)
  let iterations := (← get).loops.iterations node.id
  let condition ← readCondition setting node
  let (outcome, iterations) ←
    (advanceWhile setting.config.maxLoopIterations condition iterations : Except Fault _)
  modifyLoops (·.setWhile node.id iterations)
  afterLoopStep setting node outcome

/-- The behaviour of a node: the nodes to be visited next. Kinds without exec pins do nothing. -/
def behaviour (setting : Setting) (node : Node) : Action (List Node) :=
  let graph := setting.graph
  match node.kind with
  | .beginPlay => return graph.follow node ""
  | .sequence => return graph.successors node node.execOutputs
  | .printString => do
    let v ← read setting node "In String"
    let text ← (v.display : Except Fault Text)
    modifyTrace (·.print text)
    return graph.follow node ""
  | .setVariable => do
    if let some name ← variableName node then
      let v ← read setting node "Value"
      modify fun s => { s with bindings := s.bindings.insert name v }
      bump
    return graph.follow node ""
  | .clearVariable => do
    if let some name ← variableName node then
      modify fun s => { s with bindings := (s.bindings.clear name).2 }
      bump
    return graph.follow node ""
  | .branch => do
    let condition ← readCondition setting node
    return graph.follow node (if condition then "True" else "False")
  | .forLoop => visitForLoop setting node
  | .whileLoop => visitWhileLoop setting node
  | _ => return []

/-- Visit a node and queue its successors. A fault is reported and queues nothing. -/
def visit (setting : Setting) (node : Node) (s : State) : State :=
  match (behaviour setting node).run s with
  | (.ok next, s) => { s with queue := s.queue ++ next }
  | (.error fault, s) =>
    { s with
      evaluation := { s.evaluation with
        trace := s.evaluation.trace.report (.failed node fault) } }

def step (setting : Setting) (s : State) : State :=
  match s.queue with
  | [] => s
  | node :: queue => visit setting node { s with queue, steps := s.steps + 1 }

/-- Visit nodes until the queue is empty or the permitted steps are used up. -/
def drain (setting : Setting) : Nat → State → State
  | 0, s => s
  | n + 1, s =>
    match s.queue with
    | [] => s
    | _ :: _ => drain setting n (step setting s)

def fresh (config : Config) : Except Fault State :=
  (Generator.ofValue config.entropy config.seed).map fun generator =>
    { evaluation := { generator } }

def entryNotFound : Text := "Error: \"Begin Play\" entry node not found."

/-- What a run leaves behind: its lines, unless a fault escaped, and its final state. -/
structure Result where
  lines : Except Fault (List Text)
  state : State
  events : List Log.Event

def startEvents (graph : Graph) (entry : Node) (entries : Nat) : List Log.Event :=
  (if 1 < entries then
    [⟨.warning, Log.runLogger, "multiple entry nodes; using the first",
      [("entry", .text entry.id), ("count", .int entries)]⟩]
  else []) ++
  [⟨.debug, Log.runLogger, "blueprint run started",
    [("entry", .text entry.id), ("nodes", .int graph.size), ("wires", .int graph.wires.length)]⟩]

def endEvent (entry : Node) (s : State) : Log.Event :=
  ⟨.debug, Log.runLogger, "blueprint run finished",
    [("entry", .text entry.id), ("steps", .int s.steps), ("aborted", .bool !s.queue.isEmpty),
     ("warnings", .int s.trace.warnings), ("errors", .int s.trace.errors),
     ("cache_hits", .int s.evaluation.cacheHits)]⟩

def conclude (setting : Setting) (entry : Node) (s : State) : Except Fault Unit × State :=
  let trace :=
    if s.queue.isEmpty then s.trace
    else s.trace.report (.stepLimit entry setting.config.maxSteps s.queue.length)
  let (closed, trace) := trace.close s.bindings
  (closed, { s with evaluation := { s.evaluation with trace } })

def start (setting : Setting) (s : State) : Result :=
  match setting.graph.nodesOfKind .beginPlay with
  | [] =>
    { lines := .ok [entryNotFound]
      state := s
      events := [⟨.warning, Log.runLogger, "blueprint run aborted: no entry node",
        [("nodes", .int setting.graph.size)]⟩] }
  | entry :: others =>
    let opening := startEvents setting.graph entry (others.length + 1)
    match setting.config.permittedSteps with
    | .error fault => { lines := .error fault, state := s, events := opening }
    | .ok permitted =>
      let s := drain setting permitted { s with queue := [entry] }
      match conclude setting entry s with
      | (.error fault, s) =>
        { lines := .error fault, state := s, events := opening ++ s.trace.events }
      | (.ok (), s) =>
        { lines := .ok s.trace.lines
          state := s
          events := opening ++ s.trace.events ++ [endEvent entry s] }

/-- Run a graph. A seed that is neither a number nor a text is refused. -/
def run (setting : Setting) : Except Fault Result := (fresh setting.config).map (start setting)

end NodeScript.Run
