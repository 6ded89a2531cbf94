import NodeScript.Text.Basic
import NodeScript.Text.Printable

namespace NodeScript.Text

/-- `n` in lower-case hexadecimal, filled up with zeros to `width` digits. -/
def hexDigits (width n : Nat) : List Char :=
  let ds := Nat.toDigits 16 n
  List.replicate (width - ds.length) '0' ++ ds

def quoteMark (cs : List Char) : Char :=
  if cs.contains '\x27' && !cs.contains '\x22' then '\x22' else '\x27'

def quoteChar (mark c : Char) : List Char :=
  if c = mark ∨ c = '\\' then ['\\', c]
  else if c = '\n' then ['\\', 'n']
  else if c = '\r' then ['\\', 'r']
  else if c = '\t' then ['\\', 't']
  else if isPrintable c then [c]
  else if c.toNat < 0x100 then '\\' :: 'x' :: hexDigits 2 c.toNat
  else if c.toNat < 0x10000 then '\\' :: 'u' :: hexDigits 4 c.toNat
  else '\\' :: 'U' :: hexDigits 8 c.toNat

/-- One code point between the given quotes. A lone half of a surrogate pair cannot be printed. -/
def quotePoint (mark : Char) : CodePoint → List Char
  | .char c => quoteChar mark c
  | .half h => '\\' :: 'u' :: hexDigits 4 h.code

def quote (t : Text) : String :=
  let mark := quoteMark t.chars
  String.ofList (mark :: t.toList.flatMap (quotePoint mark) ++ [mark])

def escapeChar (c : Char) : List Char :=
  if c = '\x22' ∨ c = '\\' then ['\\', c]
  else if c = '\n' then ['\\', 'n']
  else if c = '\r' then ['\\', 'r']
  else if c = '\t' then ['\\', 't']
  else if c.toNat = 0x08 then ['\\', 'b']
  else if c.toNat = 0x0C then ['\\', 'f']
  else if c.toNat < 0x20 then '\\' :: 'u' :: hexDigits 4 c.toNat
  else [c]

def escapeRun (s : String) : String := String.ofList (s.toList.flatMap escapeChar)

/-- The text as a document's literal: double quotes, and escapes only where they are needed. -/
def literal (t : Text) : Text := "\"" ++ t.mapRuns escapeRun ++ "\""

end NodeScript.Text
