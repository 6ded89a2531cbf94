import NodeScript.Graph.Basic
import NodeScript.Log
import NodeScript.Variables

namespace NodeScript

inductive Cause
  | message (text : Text)
  | failed (node : Node) (fault : Fault)
  /-- A loop came up to its limit, which is shown in this form. -/
  | loopLimit (node : Node) (limit : Value) (shown : Text)
  | stepLimit (entry : Node) (limit : Value) (pending : Nat)

inductive Entry
  | print (text : Text)
  | warning (node : Node) (message : Text)
  | error (cause : Cause)
  | trailer (text : Text)

def Node.reference (n : Node) : Text := n.displayName ++ s!" [{n.kind.value}]"

def Cause.line : Cause → Text
  | message text => text
  | failed node fault => "Error: " ++ node.reference ++ s!" failed: {fault.message}"
  | loopLimit node _ shown =>
    "Error: " ++ node.reference ++ " exceeded " ++ shown ++ " iterations. Loop aborted."
  | stepLimit .. => "Error: Maximum execution limit reached. Possible infinite loop."

namespace Entry

def line : Entry → Text
  | print text => text
  | warning node message => "Warning: " ++ node.reference ++ " " ++ message
  | error cause => cause.line
  | trailer text => text

def isWarning : Entry → Bool
  | warning .. => true
  | _ => false

def isError : Entry → Bool
  | error _ => true
  | _ => false

end Entry

structure Trace where
  entries : List Entry := []

namespace Trace

def append (t : Trace) (e : Entry) : Trace := ⟨t.entries ++ [e]⟩

def print (t : Trace) (text : Text) : Trace := t.append (.print text)

def warn (t : Trace) (node : Node) (message : Text) : Trace := t.append (.warning node message)

def report (t : Trace) (cause : Cause) : Trace := t.append (.error cause)

def lines (t : Trace) : List Text := t.entries.map Entry.line

def size (t : Trace) : Nat := t.entries.length

def warnings (t : Trace) : Nat := t.entries.countP Entry.isWarning

def errors (t : Trace) : Nat := t.entries.countP Entry.isError

def separator : Text := "---"

/-- Close the trace with a listing of the variables. If a variable has no text, the separator is
the last line. -/
def close (t : Trace) (vs : Variables) : Except Fault Unit × Trace :=
  let t := t.append (.trailer separator)
  match vs.listing with
  | .error f => (.error f, t)
  | .ok ls => (.ok (), ⟨t.entries ++ ls.map .trailer⟩)

end Trace

def Log.runLogger : String := "blueprintruntime.engine.interpreter"

def Log.traceLogger : String := "blueprintruntime.engine.trace"

namespace Entry

open Log

/-- The event that accompanies every error line. -/
def errorEvent (cause : Cause) : Event :=
  ⟨.debug, traceLogger, "run error", [("message", .text cause.line)]⟩

/-- The fields that name a node, and further ones. -/
def nodeFields (n : Node) (more : List (Text × Value) := []) : List (Text × Value) :=
  ("node_id", .text n.id) :: ("kind", .text n.kind.value) :: more

def events : Entry → List Event
  | print _ | trailer _ => []
  | warning node message =>
    [⟨.debug, traceLogger, "node warning", nodeFields node [("message", .text message)]⟩]
  | error cause =>
    let first : List Event :=
      match cause with
      | .message _ => []
      | .failed node _ => [⟨.error, runLogger, "node execution failed", nodeFields node⟩]
      | .loopLimit node limit _ =>
        [⟨.warning, runLogger, "loop iteration limit reached",
          nodeFields node [("limit", limit)]⟩]
      | .stepLimit entry limit pending =>
        [⟨.warning, runLogger, "execution step limit reached",
          [("entry", .text entry.id), ("max_steps", limit), ("pending", .int pending)]⟩]
    first ++ [errorEvent cause]

end Entry

def Trace.events (t : Trace) : List Log.Event := t.entries.flatMap Entry.events

end NodeScript
