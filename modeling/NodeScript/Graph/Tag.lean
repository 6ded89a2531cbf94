import NodeScript.Text.Blank
import NodeScript.Value.Text

namespace NodeScript

inductive LoadError
  | notObject
  | nodesNotList
  | wiresNotList
  | missingTag (vocabulary : String)
  | unknownTag (vocabulary : String) (tag : Text)
  | fault (f : Fault)
  deriving DecidableEq, Repr

def LoadError.message : LoadError → Text
  | notObject => "Blueprint graph must be a JSON object (dict)"
  | nodesNotList => "Blueprint 'nodes' must be a list"
  | wiresNotList => "Blueprint 'wires' must be a list"
  | missingTag vocabulary => s!"Missing {vocabulary} value"
  | unknownTag vocabulary tag => s!"Unknown {vocabulary} '" ++ tag ++ "'"
  | fault f => f.message

structure Tag where
  text : Text
  shown : Text
  deriving DecidableEq, Repr

namespace Tag

def ofText (t : Text) : Tag := ⟨t, t⟩

def vocabularies : List Text :=
  [Vocabulary.title NodeKind, Vocabulary.title DataType, Vocabulary.title Direction]

/-- Drop the blank margins and the name of a vocabulary in front of the first dot, unless nothing
would be left. -/
def unqualified (t : Text) : Text :=
  let t := Text.strip t
  let front := Text.ofList (t.toList.takeWhile (· ≠ .char '.'))
  let rest := Text.strip (.ofList ((t.toList.dropWhile (· ≠ .char '.')).drop 1))
  if vocabularies.contains front ∧ rest ≠ "" then rest else t

/-- The tag that a value stands for. An object is a tag through the text of its value field. -/
def ofValue (v : Value) : Except Fault Tag :=
  match v with
  | .symbol s => .ok (ofText s.value)
  | .text s => .ok (ofText (unqualified s))
  | v =>
    match v.field? "value" with
    | some (.text s) => .ok (ofText s)
    | some (.symbol s) => .ok ⟨s.value, s.qualified⟩
    | _ => v.plainOrEmpty.map ofText

/-- Lower case, of the letters whose lower-case form is an ASCII letter: the ASCII capitals and the
Kelvin sign. The names of members hold ASCII only, so no other letter can match one of theirs. -/
def foldCase (c : Char) : Char := if c.toNat = 0x212A then 'k' else c.toLower

def fold (t : Text) : List Char := t.chars.map foldCase

/-- The member with exactly this value, or else the first whose name or value is the same in lower
case. -/
def member? (α : Type) [Vocabulary α] (tag : Text) : Option α :=
  let members : List α := Vocabulary.all
  (members.find? fun m => Vocabulary.value m = tag).or
    (members.find? fun m =>
      fold (Vocabulary.name m) = fold tag ∨ fold (Vocabulary.value m) = fold tag)

/-- The member that a value names. An empty tag means the default. -/
def resolve (α : Type) [Vocabulary α] (default? : Option α) (v : Value) : Except LoadError α := do
  let tag ← (ofValue v).mapError .fault
  if tag.text = "" then
    match default? with
    | some m => return m
    | none => throw (.missingTag (Vocabulary.title α))
  else
    match member? α tag.text with
    | some m => return m
    | none => throw (.unknownTag (Vocabulary.title α) tag.shown)

end Tag

end NodeScript
