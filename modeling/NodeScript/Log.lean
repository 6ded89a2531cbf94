import NodeScript.Value.Basic

namespace NodeScript.Log

inductive Level
  | debug | info | warning | error | critical
  deriving DecidableEq, Repr

namespace Level

def name : Level → String
  | debug => "debug"
  | info => "info"
  | warning => "warning"
  | error => "error"
  | critical => "critical"

def severity : Level → Nat
  | debug => 10
  | info => 20
  | warning => 30
  | error => 40
  | critical => 50

def ofName? : String → Option Level
  | "debug" => some debug
  | "info" => some info
  | "warning" | "warn" => some warning
  | "error" => some error
  | "critical" | "fatal" => some critical
  | _ => none

end Level

/-- Upper case, of the letters whose upper-case form is made of ASCII letters: the ASCII letters,
the dotless i, the long s, the sharp s and the ligatures. The names of thresholds hold ASCII
only. -/
def foldUpper (c : Char) : List Char :=
  match c.toNat with
  | 0xDF => ['S', 'S']
  | 0x131 => ['I']
  | 0x17F => ['S']
  | 0xFB00 => ['F', 'F']
  | 0xFB01 => ['F', 'I']
  | 0xFB02 => ['F', 'L']
  | 0xFB03 => ['F', 'F', 'I']
  | 0xFB04 => ['F', 'F', 'L']
  | 0xFB05 | 0xFB06 => ['S', 'T']
  | _ => [c.toUpper]

/-- The layout of a line of the log, which has a name like a level. -/
def lineFormat : String := "%(levelname)s:%(name)s:%(message)s"

/-- The table of all layouts as a message shows it. -/
def styleTable : String :=
  "\x7b'%': (<class 'logging.PercentStyle'>, '%(levelname)s:%(name)s:%(message)s'), " ++
  "'\x7b': (<class 'logging.StrFormatStyle'>, " ++
  "'\x7blevelname\x7d:\x7bname\x7d:\x7bmessage\x7d'), " ++
  "'$': (<class 'logging.StringTemplateStyle'>, " ++
  "'$\x7blevelname\x7d:$\x7bname\x7d:$\x7bmessage\x7d')\x7d"

/-- The least severity that is shown. A name that is not known means warnings; the names of the
layouts are known, but they are no levels. -/
def threshold (name : String) : Except Fault Nat :=
  match String.ofList (name.toList.flatMap foldUpper) with
  | "NOTSET" => .ok 0
  | "DEBUG" => .ok Level.debug.severity
  | "INFO" => .ok Level.info.severity
  | "WARNING" | "WARN" => .ok Level.warning.severity
  | "ERROR" => .ok Level.error.severity
  | "CRITICAL" | "FATAL" => .ok Level.critical.severity
  | "BASIC_FORMAT" => .error (.unknownLevel lineFormat)
  | "_STYLES" => .error (.badLevel styleTable)
  | _ => .ok Level.warning.severity

structure Event where
  level : Level
  logger : String
  event : Text
  fields : List (Text × Value) := []

def shown (threshold : Nat) (events : List Event) : List Event :=
  events.filter fun e => threshold ≤ e.level.severity

end NodeScript.Log
