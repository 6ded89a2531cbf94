import NodeScript.Fault

namespace NodeScript.CommandLine

/-- Drop empty and current-directory parts of a path; nothing left means the current directory.
Exactly two leading slashes are kept. -/
def normalizePath (path : String) : String :=
  let cs := path.toList
  let slashes := (cs.takeWhile (· = '/')).length
  let root := if slashes = 0 then "" else if slashes = 2 then "//" else "/"
  let parts := (path.splitOn "/").filter fun part => part ≠ "" ∧ part ≠ "."
  let joined := root ++ "/".intercalate parts
  if joined = "" then "." else joined

inductive ReadFailure
  | missing
  | denied
  | notDirectory
  | directory
  | nameTooLong
  deriving DecidableEq, Repr

namespace ReadFailure

def number : ReadFailure → Nat
  | missing => 2
  | denied => 13
  | notDirectory => 20
  | directory => 21
  | nameTooLong => 36

def description : ReadFailure → String
  | missing => "No such file or directory"
  | denied => "Permission denied"
  | notDirectory => "Not a directory"
  | directory => "Is a directory"
  | nameTooLong => "File name too long"

def message (f : ReadFailure) (path : String) : String :=
  s!"[Errno {f.number}] {f.description}: {Text.quote path}"

end ReadFailure

end NodeScript.CommandLine
