import NodeScript.OrderedMap
import NodeScript.Value.Text

namespace NodeScript

abbrev Variables := OrderedMap Text Value

namespace Variables

/-- Remove a variable, and tell whether it was there. -/
def clear (vs : Variables) (name : Text) : Bool × Variables := (vs.contains name, vs.erase name)

def noneLine : Text := "  (no variables)"

def line (name : Text) (v : Value) : Except Fault Text := do
  let shown ← v.literal
  return "  " ++ name ++ ": " ++ shown

def lines : List (Text × Value) → Except Fault (List Text)
  | [] => .ok []
  | (name, v) :: es => do
    let l ← line name v
    let ls ← lines es
    return l :: ls

/-- One line for each variable, or a line that says that there are none. -/
def listing (vs : Variables) : Except Fault (List Text) :=
  if vs.entries.isEmpty then .ok [noneLine] else lines vs.entries

end Variables

end NodeScript
