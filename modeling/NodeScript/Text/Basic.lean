/-!
Texts. A document writes characters beyond the basic plane as two escapes, and nothing keeps it
from writing one of the two alone. A text is therefore a sequence of code points: characters, and
lone halves of surrogate pairs between them.
-/

namespace NodeScript

/-- Half of a surrogate pair, by its distance from the first of them. -/
structure Half where
  offset : Fin 0x800
  deriving DecidableEq, Repr

namespace Half

def code (h : Half) : Nat := 0xD800 + h.offset

def ofCode? (n : Nat) : Option Half :=
  if h : 0xD800 ≤ n ∧ n < 0xE000 then some ⟨⟨n - 0xD800, by omega⟩⟩ else none

def isHigh (h : Half) : Bool := h.offset.val < 0x400

/-- The character of a pair, if the halves stand in the right order. -/
def join? (high low : Half) : Option Char :=
  if high.isHigh && !low.isHigh then
    some (Char.ofNat (0x10000 + high.offset.val * 0x400 + (low.offset.val - 0x400)))
  else none

end Half

inductive CodePoint
  | char (c : Char)
  | half (h : Half)
  deriving DecidableEq, Repr

namespace CodePoint

def ofNat (n : Nat) : CodePoint :=
  match Half.ofCode? n with
  | some h => half h
  | none => char (Char.ofNat n)

/-- The character to be classified: a lone half is neither blank nor a letter, a digit or a sign,
just like the replacement character. -/
def toChar : CodePoint → Char
  | char c => c
  | half _ => '\uFFFD'

end CodePoint

/-- The characters up to the first lone half, then each half with the characters after it. -/
structure Text where
  head : String
  tail : List (Half × String) := []
  deriving DecidableEq, Repr

namespace Text

instance : Coe String Text := ⟨fun s => ⟨s, []⟩⟩

instance : Inhabited Text := ⟨""⟩

def run (s : String) : List CodePoint := s.toList.map .char

def toList (t : Text) : List CodePoint :=
  run t.head ++ t.tail.flatMap fun e => .half e.1 :: run e.2

/-- Put a code point in front of texts that are still lists of characters. -/
def prepend (p : CodePoint) (r : List Char × List (Half × List Char)) :
    List Char × List (Half × List Char) :=
  match p with
  | .char c => (c :: r.1, r.2)
  | .half h => ([], (h, r.1) :: r.2)

def ofList (ps : List CodePoint) : Text :=
  let r := ps.foldr prepend ([], [])
  ⟨String.ofList r.1, r.2.map fun e => (e.1, String.ofList e.2)⟩

def prependRun (s : String) (t : Text) : Text := ⟨s ++ t.head, t.tail⟩

/-- Join the last run of characters in `tail` with the first of `t`. -/
def appendTail (t : Text) : List (Half × String) → List (Half × String)
  | [] => t.tail
  | [(h, s)] => (h, s ++ t.head) :: t.tail
  | e :: es => e :: appendTail t es

def append (s t : Text) : Text :=
  match s.tail with
  | [] => t.prependRun s.head
  | tail => ⟨s.head, appendTail t tail⟩

instance : Append Text := ⟨append⟩

def length (t : Text) : Nat :=
  t.tail.foldl (fun n e => n + 1 + e.2.length) t.head.length

/-- The characters to be classified, one for each code point. -/
def chars (t : Text) : List Char :=
  t.head.toList ++ t.tail.flatMap fun e => '\uFFFD' :: e.2.toList

/-- Replace the runs of characters and keep the lone halves. -/
def mapRuns (f : String → String) (t : Text) : Text :=
  ⟨f t.head, t.tail.map fun e => (e.1, f e.2)⟩

def join (between : Text) : List Text → Text
  | [] => ""
  | [t] => t
  | t :: ts => t ++ between ++ join between ts

theorem toList_coe (s : String) : toList s = s.toList.map .char := by
  simp [toList, run]

theorem foldr_prepend_chars (cs : List Char) (r : List Char × List (Half × List Char)) :
    (cs.map CodePoint.char).foldr prepend r = (cs ++ r.1, r.2) := by
  induction cs with
  | nil => rfl
  | cons c cs ih => simp [prepend, ih]

theorem foldr_prepend_tail (es : List (Half × String)) :
    (es.flatMap fun e => CodePoint.half e.1 :: run e.2).foldr prepend ([], []) =
      ([], es.map fun e => (e.1, e.2.toList)) := by
  induction es with
  | nil => rfl
  | cons e es ih =>
    rw [List.flatMap_cons, List.foldr_append, ih, List.foldr_cons, run, foldr_prepend_chars]
    simp [prepend]

theorem ofList_toList (t : Text) : ofList t.toList = t := by
  rw [ofList, toList, List.foldr_append, foldr_prepend_tail, run, foldr_prepend_chars]
  simp [Function.comp_def]

theorem toList_ofList (ps : List CodePoint) : (ofList ps).toList = ps := by
  induction ps with
  | nil => rfl
  | cons p ps ih =>
    cases p <;> simpa [ofList, toList, run, prepend, List.flatMap_map] using ih

theorem toList_appendTail (t : Text) (es : List (Half × String)) (h : es ≠ []) :
    ((appendTail t es).flatMap fun e => CodePoint.half e.1 :: run e.2) =
      (es.flatMap fun e => CodePoint.half e.1 :: run e.2) ++ t.toList := by
  fun_induction appendTail t es with
  | case1 => exact absurd rfl h
  | case2 h s => simp [toList, run]
  | case3 e es hne ih =>
    have hes : es ≠ [] := by
      rintro rfl
      exact hne e.1 e.2 rfl rfl
    simp [ih hes]

theorem toList_append (s t : Text) : (s ++ t).toList = s.toList ++ t.toList := by
  show (append s t).toList = s.toList ++ t.toList
  unfold append
  split
  · rename_i hs
    simp [prependRun, toList, run, hs]
  · rename_i tail htail
    have h := toList_appendTail t s.tail fun hs => htail hs
    simpa [toList] using h

theorem toList_injective {s t : Text} (h : s.toList = t.toList) : s = t := by
  rw [← ofList_toList s, h, ofList_toList]

theorem append_assoc (s t u : Text) : s ++ t ++ u = s ++ (t ++ u) := by
  apply toList_injective
  simp only [toList_append, List.append_assoc]

theorem empty_append (t : Text) : "" ++ t = t := by
  apply toList_injective
  rw [toList_append, toList_coe]
  rfl

theorem append_empty (t : Text) : t ++ "" = t := by
  apply toList_injective
  rw [toList_append, toList_coe]
  exact List.append_nil t.toList

end Text

end NodeScript
