import NodeScript.CommandLine

namespace NodeScript

open CommandLine

def readFailure : IO.Error → ReadFailure
  | .permissionDenied .. => .denied
  | .inappropriateType .. => .directory
  | .invalidArgument .. => .nameTooLong
  | _ => .missing

/-- The octets of the document that the words name, if they name a file. -/
def fetch (words : List String) : IO (Except ReadFailure (List Nat)) := do
  match parseArguments words with
  | .ok i =>
    if i.path = inputPath then return .ok []
    try
      let octets ← IO.FS.readBinFile (normalizePath i.path)
      return .ok (octets.toList.map UInt8.toNat)
    catch e => return .error (readFailure e)
  | .error _ => return .ok []

def eventLine (e : Log.Event) : Text :=
  let fields : List (Text × Value) :=
    ("event", .text e.event) :: ("level", .text e.level.name) :: ("logger", .text e.logger) ::
      e.fields
  match (Value.record fields).literal with
  | .ok t => t
  | .error f => f.message

/-- A text for the console, on which a lone half of a surrogate pair has no form. -/
def console (t : Text) : String := String.ofList t.chars

/-- Keys that differ in their first word only. -/
def gatherEntropy : IO Entropy := do
  let octets ← IO.getRandomBytes 64
  return fun n => UInt32.ofNat n :: octets.toList.map UInt8.toUInt32

def printEvents (events : List Log.Event) : IO Unit := do
  for e in events do IO.eprintln (console (eventLine e))

end NodeScript

open NodeScript CommandLine in
def main (words : List String) : IO UInt32 := do
  let stdin ← IO.getStdin
  let document ← fetch words
  let input ← if words.contains inputPath then stdin.readToEnd else pure ""
  let entropy ← gatherEntropy
  let outcome := call { input, file := fun _ => document, entropy } words
  match outcome with
  | .help => IO.println s!"usage: {programName} {commandName} [options] path"
  | .misuse text => IO.eprintln text
  | .notLoaded text events =>
    printEvents events
    IO.eprintln (console text)
  | .finished _ lines events =>
    printEvents events
    for line in lines do IO.println (console line)
  | .escaped failure events =>
    printEvents events
    IO.eprintln failure.message
  return UInt32.ofNat outcome.exitCode
