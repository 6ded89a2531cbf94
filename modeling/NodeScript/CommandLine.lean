import NodeScript.CommandLine.Arguments
import NodeScript.CommandLine.Path
import NodeScript.Graph.Document
import NodeScript.Json
import NodeScript.Run
import NodeScript.Text.Utf8

namespace NodeScript.CommandLine

/-- Where documents come from, and the keys of generators without a seed. -/
structure Surroundings where
  input : String
  file : String → Except ReadFailure (List Nat)
  entropy : Entropy := fun _ => []

/-- Why no graph could be loaded. The last two are not reported but escape. -/
inductive LoadFailure
  | unreadable (failure : ReadFailure) (path : String)
  | malformed (failure : Json.Failure) (text : String)
  | refused (error : LoadError)
  | undecodable (failure : Text.Utf8Failure)
  | fault (f : Fault)

inductive Escape
  | fault (f : Fault)
  | undecodable (failure : Text.Utf8Failure)

def Escape.message : Escape → String
  | fault f => f.message
  | undecodable failure => failure.message

/-- The message of a failure that is reported, or the failure that escapes. -/
def LoadFailure.report : LoadFailure → Except Escape Text
  | unreadable failure path => .ok (failure.message path)
  | malformed (.fault f) _ => .error (.fault f)
  | malformed failure text => .ok (failure.message text)
  | refused (.fault f) => .error (.fault f)
  | refused error => .ok error.message
  | undecodable failure => .error (.undecodable failure)
  | fault f => .error (.fault f)

def inputPath : String := "-"

def readText (around : Surroundings) (path : String) : Except LoadFailure String := do
  if path = inputPath then return around.input
  if path.toList.contains '\x00' then throw (.fault .nullInPath)
  let path := normalizePath path
  let octets ← (around.file path).mapError (LoadFailure.unreadable · path)
  let text ← (Text.decodeUtf8 octets).mapError LoadFailure.undecodable
  return String.ofList (Text.normalizeLines text.toList)

def load (around : Surroundings) (path : String) : Except LoadFailure Graph := do
  let text ← readText around path
  let document ← (Json.read text).mapError (LoadFailure.malformed · text)
  (Document.read document).mapError .refused

inductive Outcome
  | help
  | misuse (text : String)
  | notLoaded (text : Text) (events : List Log.Event)
  | finished (exitCode : Nat) (lines : List Text) (events : List Log.Event)
  | escaped (failure : Escape) (events : List Log.Event)

def Outcome.exitCode : Outcome → Nat
  | help => 0
  | misuse _ => 2
  | notLoaded .. => 1
  | finished exitCode .. => exitCode
  | escaped .. => 1

def logger : String := "blueprintruntime.cli"

def exitCodeOf (lines : List Text) : Nat := if lines = [Run.entryNotFound] then 2 else 0

def Invocation.config (i : Invocation) (entropy : Entropy := fun _ => []) : Config :=
  { maxSteps := i.maxSteps
    maxLoopIterations := i.maxLoopIterations
    seed := i.seed
    entropy }

def notLoaded (threshold : Nat) (path : String) (failure : LoadFailure) : Outcome :=
  match failure.report with
  | .error escape => .escaped escape []
  | .ok reason =>
    .notLoaded (s!"Error: could not load blueprint '{path}': " ++ reason)
      (Log.shown threshold [⟨.error, logger, "failed to load blueprint",
        [("path", .text path), ("error", .text reason)]⟩])

def ended (threshold : Nat) (result : Run.Result) : Outcome :=
  let events := Log.shown threshold result.events
  match result.lines with
  | .error f => .escaped (.fault f) events
  | .ok lines => .finished (exitCodeOf lines) lines events

def execute (around : Surroundings) (i : Invocation) : Outcome :=
  match Log.threshold i.logLevel with
  | .error f => .escaped (.fault f) []
  | .ok threshold =>
    match (i.config around.entropy).check with
    | .error (.fault f) => .escaped (.fault f) []
    | .error e => .misuse s!"{programName}: error: {e.message}"
    | .ok config =>
      match load around i.path with
      | .error failure => notLoaded threshold i.path failure
      | .ok graph =>
        match Run.run { graph, config } with
        | .error f => .escaped (.fault f) []
        | .ok result => ended threshold result

def call (around : Surroundings) (words : List String) : Outcome :=
  match parseArguments words with
  | .error .help => .help
  | .error (.misuse program m) => .misuse s!"{program}: error: {m.message}"
  | .ok i => execute around i

end NodeScript.CommandLine
