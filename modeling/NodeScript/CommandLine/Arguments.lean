import NodeScript.Value.Text

/-!
Command-line arguments. The one command is `run`, which takes a path and options. Options are
recognised by any beginning that fits one name only, take their value after an equals sign or from
the next word, and end at a double dash.
-/

namespace NodeScript.CommandLine

def programName : String := "blueprintruntime"

def commandName : String := "run"

inductive Opt
  | help | seed | maxSteps | maxLoopIterations | logLevel | jsonLogs
  deriving DecidableEq, Repr

namespace Opt

def takesValue : Opt → Bool
  | help | jsonLogs => false
  | _ => true

def title : Opt → String
  | help => "-h/--help"
  | seed => "--seed"
  | maxSteps => "--max-steps"
  | maxLoopIterations => "--max-loop-iterations"
  | logLevel => "--log-level"
  | jsonLogs => "--json-logs"

end Opt

/-- A parser knows its options by their names. -/
structure Parser where
  program : String
  names : List (String × Opt)

def topParser : Parser := ⟨programName, [("-h", .help), ("--help", .help)]⟩

def runParser : Parser :=
  { program := s!"{programName} {commandName}"
    names := topParser.names ++
      [("--seed", .seed), ("--max-steps", .maxSteps),
       ("--max-loop-iterations", .maxLoopIterations), ("--log-level", .logLevel),
       ("--json-logs", .jsonLogs)] }

inductive Misuse
  | ambiguous (word : String) (names : List String)
  | ignoredValue (option : Opt) (value : String)
  | missingValue (option : Opt)
  | notInteger (option : Opt) (value : String)
  | unknownCommand (word : String)
  | required (names : List String)
  | unrecognized (words : List String)
  | config (message : String)
  deriving DecidableEq, Repr

def Misuse.message : Misuse → String
  | ambiguous word names =>
    let names := ", ".intercalate names
    s!"ambiguous option: {word} could match {names}"
  | ignoredValue option value =>
    s!"argument {option.title}: ignored explicit argument {Text.quote value}"
  | missingValue option => s!"argument {option.title}: expected one argument"
  | notInteger option value =>
    s!"argument {option.title}: invalid int value: {Text.quote value}"
  | unknownCommand word =>
    s!"argument command: invalid choice: {Text.quote word} (choose from '{commandName}')"
  | required names =>
    let names := ", ".intercalate names
    s!"the following arguments are required: {names}"
  | unrecognized words =>
    let words := " ".intercalate words
    s!"unrecognized arguments: {words}"
  | config message => message

inductive Early
  | help
  | misuse (program : String) (m : Misuse)
  deriving DecidableEq, Repr

inductive Role
  | argument
  /-- An option, if it is known, with the name it goes by and the value attached to it. -/
  | option (option? : Option Opt) (name : String) (value? : Option String)
  /-- The double dash after which nothing is an option. -/
  | endOfOptions
  deriving DecidableEq, Repr

/-- The parts before and after the first equals sign. -/
def splitEquals (cs : List Char) : Option (String × String) :=
  if cs.contains '=' then
    some (String.ofList (cs.takeWhile (· ≠ '=')), String.ofList ((cs.dropWhile (· ≠ '=')).drop 1))
  else none

/-- A dash and digits, possibly with a point before the last of them. -/
def isNegativeNumber : List Char → Bool
  | '-' :: cs =>
    let cs := if cs.getLast? = some '\n' then cs.dropLast else cs
    let isDigit (c : Char) := (Text.digit? c).isSome
    let rest := cs.dropWhile isDigit
    match rest with
    | [] => !cs.isEmpty
    | '.' :: ds => !ds.isEmpty && ds.all isDigit
    | _ => false
  | _ => false

namespace Parser

def option? (p : Parser) (name : String) : Option Opt :=
  (p.names.find? (·.1 = name)).map (·.2)

/-- The options that a word may abbreviate. A word with a single dash may also be a short option
with its value attached. -/
def candidates (p : Parser) (word : String) : List (Opt × String × Option String) :=
  let cs := word.toList
  match cs with
  | '-' :: '-' :: _ =>
    let (stem, value?) :=
      match splitEquals cs with
      | some (stem, value) => (stem, some value)
      | none => (word, none)
    p.names.filterMap fun (name, o) =>
      if stem.toList.isPrefixOf name.toList then some (o, name, value?) else none
  | _ =>
    p.names.filterMap fun (name, o) =>
      if name.toList = cs.take 2 then some (o, name, some (String.ofList (cs.drop 2)))
      else if cs.isPrefixOf name.toList then some (o, name, none)
      else none

def role (p : Parser) (word : String) : Except Early Role := do
  let cs := word.toList
  if cs.head? ≠ some '-' then return .argument
  if let some o := p.option? word then return .option (some o) word none
  if cs.length = 1 then return .argument
  if let some (name, value) := splitEquals cs then
    if let some o := p.option? name then return .option (some o) name (some value)
  match p.candidates word with
  | [(o, name, value?)] => return .option (some o) name value?
  | [] =>
    if isNegativeNumber cs ∨ cs.contains ' ' then return .argument
    return .option none word none
  | several => throw (.misuse p.program (.ambiguous word (several.map (·.2.1))))

def roles (p : Parser) : List String → Except Early (List (String × Role))
  | [] => .ok []
  | word :: words =>
    if word = "--" then .ok ((word, .endOfOptions) :: words.map (·, .argument))
    else do
      let r ← p.role word
      let rs ← p.roles words
      return (word, r) :: rs

end Parser

structure Invocation where
  path : String := ""
  seed : Value := .null
  maxSteps : Value := .int 1000
  maxLoopIterations : Value := .int 1000
  logLevel : String := "WARNING"
  jsonLogs : Bool := false

/-- The value of an option: a double dash is dropped, which leaves an empty list. -/
def given {α : Type} (read : String → Except Early α) (empty : α) (value : String) :
    Except Early α :=
  if value = "--" then .ok empty else read value

def readInt (p : Parser) (o : Opt) (value : String) : Except Early Value :=
  match Decimal.readInteger value with
  | .ok n => .ok (.int n)
  | .error _ => .error (.misuse p.program (.notInteger o value))

def Invocation.set (i : Invocation) (p : Parser) (o : Opt) (value : String) :
    Except Early Invocation := do
  match o with
  | .help => throw .help
  | .seed => return { i with seed := ← given (readInt p o) (.list []) value }
  | .maxSteps => return { i with maxSteps := ← given (readInt p o) (.list []) value }
  | .maxLoopIterations =>
    return { i with maxLoopIterations := ← given (readInt p o) (.list []) value }
  | .logLevel => return { i with logLevel := ← given .ok "[]" value }
  | .jsonLogs => return { i with jsonLogs := true }

/-- A short option without a value may be followed by further short options in the same word. -/
def shortOptions (p : Parser) (o : Opt) : List Char → Except Early Unit
  | [] => throw .help
  | c :: cs =>
    match p.option? (String.ofList ['-', c]) with
    | some o => shortOptions p o cs
    | none => throw (.misuse p.program (.ignoredValue o (String.ofList (c :: cs))))

/-- What a parser has gathered: the invocation, whether its positional argument is still due, and
the words that it does not know. -/
structure Gathered where
  invocation : Invocation := {}
  due : Bool := true
  extras : List String := []

/-- What a parser does with the words of its positional argument: how many words it takes from
the front, and what they mean. -/
structure Positional where
  count : List (String × Role) → Nat
  take : Invocation → List String → Except Early (Invocation × List String)

def gatherOption (p : Parser) (g : Gathered) (word : String) (o? : Option Opt) (name : String)
    (value? : Option String) (rest : List (String × Role)) :
    Except Early (Gathered × List (String × Role)) := do
  match o? with
  | none => return ({ g with extras := g.extras ++ [word] }, rest)
  | some o =>
    match value? with
    | some value =>
      if o.takesValue then return ({ g with invocation := ← g.invocation.set p o value }, rest)
      if name.toList.take 2 ≠ ['-', '-'] ∧ value ≠ "" then
        shortOptions p o value.toList
      throw (.misuse p.program (.ignoredValue o value))
    | none =>
      if !o.takesValue then return ({ g with invocation := ← g.invocation.set p o "" }, rest)
      match rest with
      | (value, .argument) :: rest =>
        return ({ g with invocation := ← g.invocation.set p o value }, rest)
      | _ => throw (.misuse p.program (.missingValue o))

def isOption : String × Role → Bool
  | (_, .option ..) => true
  | _ => false

def gatherPositional (positional : Positional) (g : Gathered) (words : List (String × Role)) :
    Except Early (Gathered × List (String × Role)) := do
  let n := if g.due then positional.count words else 0
  if n = 0 then return (g, words)
  let (invocation, extras) ← positional.take g.invocation ((words.take n).map (·.1))
  return ({ invocation, due := false, extras := g.extras ++ extras }, words.drop n)

/-- Take options and the positional argument in turn, up to the last option; what stands in between
is not known. Each round takes at least one word. -/
def gather (p : Parser) (positional : Positional) :
    Nat → Gathered → List (String × Role) → Except Early Gathered
  | 0, g, _ => .ok g
  | fuel + 1, g, words => do
    match words with
    | (word, .option o? name value?) :: rest =>
      let (g, rest) ← gatherOption p g word o? name value? rest
      gather p positional fuel g rest
    | _ =>
      let (g, rest) ← gatherPositional positional g words
      if !words.any isOption then
        return { g with extras := g.extras ++ rest.map (·.1) }
      else if rest.length < words.length then gather p positional fuel g rest
      else
        let unknown := (words.takeWhile (!isOption ·)).map (·.1)
        gather p positional fuel { g with extras := g.extras ++ unknown }
          (words.dropWhile (!isOption ·))

def Parser.parse (p : Parser) (positional : Positional) (name : String) (words : List String) :
    Except Early Gathered := do
  let roles ← p.roles words
  let g ← gather p positional (roles.length + 1) {} roles
  if g.due then throw (.misuse p.program (.required [name]))
  return g

def isMark (w : String × Role) : Bool := w.2 = .endOfOptions

/-- The path: one argument, which a double dash may precede or follow. -/
def pathArgument : Positional where
  count words :=
    let marks := words.takeWhile isMark
    match words.drop marks.length with
    | (_, .argument) :: rest => marks.length + 1 + (rest.takeWhile isMark).length
    | _ => 0
  take i words := .ok ({ i with path := (words.erase "--").headD "" }, [])

/-- The command with all words after it, which its own parser reads. -/
def commandArgument : Positional where
  count words :=
    match words.dropWhile isMark with
    | (_, .argument) :: _ => words.length
    | _ => 0
  take _ words :=
    match words with
    | [] => .ok ({}, [])
    | command :: words => do
      if command ≠ commandName then throw (.misuse programName (.unknownCommand command))
      let g ← runParser.parse pathArgument "path" words
      return (g.invocation, g.extras)

def parseArguments (words : List String) : Except Early Invocation := do
  let g ← topParser.parse commandArgument "command" words
  if !g.extras.isEmpty then throw (.misuse programName (.unrecognized g.extras))
  return g.invocation

end NodeScript.CommandLine
