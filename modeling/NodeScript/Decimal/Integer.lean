import NodeScript.Text.Blank
import NodeScript.Text.Digit

namespace NodeScript.Decimal

def digitLimit : Nat := 4300

def natDigits (n : Nat) : List Char := Nat.toDigits 10 n

def numeral (n : Int) : String :=
  String.ofList (if n < 0 then '-' :: natDigits n.natAbs else natDigits n.natAbs)

/-- The decimal numeral of `n` if it has at most `digitLimit` digits. -/
def numeral? (n : Int) : Option String :=
  if n.natAbs < Nat.pow 10 digitLimit then some (numeral n) else none

def positional (ds : List Nat) : Nat := ds.foldl (fun a d => 10 * a + d) 0

inductive ReadFailure
  | malformed
  | tooLong (digits : Nat)
  deriving DecidableEq, Repr

/-- Split off a sign; the first component says whether it was a minus. -/
def splitSign : List Char → Bool × List Char
  | '-' :: cs => (true, cs)
  | '+' :: cs => (false, cs)
  | cs => (false, cs)

theorem sublist_splitSign (cs : List Char) : (splitSign cs).2.Sublist cs := by
  unfold splitSign
  split
  · exact List.sublist_cons_self _ _
  · exact List.sublist_cons_self _ _
  · exact List.Sublist.refl _

/-- The digits at the front of a numeral and what follows them, or `none` where a separator does
not stand between two digits. `afterDigit` says whether a digit has just been read. -/
def splitDigits (afterDigit : Bool) : List Char → Option (List Nat × List Char)
  | [] => some ([], [])
  | c :: cs =>
    match Text.digit? c with
    | some d => (splitDigits true cs).map fun r => (d :: r.1, r.2)
    | none =>
      if c = '_' then
        match afterDigit, cs with
        | true, c' :: _ =>
          if (Text.digit? c').isSome then splitDigits false cs else none
        | _, _ => none
      else some ([], c :: cs)

def applySign (negative : Bool) (n : Nat) : Int := if negative then -n else n

/-- Read an integer numeral: blank margins, a sign, decimal digits of any script, and single
underscores between digits. Too many digits are refused before what follows them is looked at. -/
def readInteger (s : Text) : Except ReadFailure Int :=
  let (negative, cs) := splitSign (Text.trim Text.isMargin s.chars)
  match splitDigits false cs with
  | none => .error .malformed
  | some (ds, rest) =>
    if ds.length > digitLimit then .error (.tooLong ds.length)
    else if ds.isEmpty ∨ ¬rest.isEmpty then .error .malformed
    else .ok (applySign negative (positional ds))

end NodeScript.Decimal
