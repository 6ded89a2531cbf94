import NodeScript.Text.Basic

namespace NodeScript.Text

/-- The characters that count as blank: the Unicode spaces, the line and paragraph separators, and
the control characters that separate lines, fields or records. -/
def isBlank (c : Char) : Bool :=
  let n := c.toNat
  (0x09 ≤ n && n ≤ 0x0D) || (0x1C ≤ n && n ≤ 0x20) || n == 0x85 || n == 0xA0 || n == 0x1680 ||
    (0x2000 ≤ n && n ≤ 0x200A) || n == 0x2028 || n == 0x2029 || n == 0x202F || n == 0x205F ||
    n == 0x3000

/-- The blanks allowed around a numeral: all but the four information separators. -/
def isMargin (c : Char) : Bool :=
  isBlank c && !(0x1C ≤ c.toNat && c.toNat ≤ 0x1F)

def trim {α : Type} (p : α → Bool) (as : List α) : List α :=
  (((as.dropWhile p).reverse).dropWhile p).reverse

def strip (t : Text) : Text := ofList (trim (fun p => isBlank p.toChar) t.toList)

def isBlankText (t : Text) : Bool := t.chars.all isBlank

theorem isBlank_eq_false_of_ascii {c : Char} (hlow : 0x20 < c.toNat) (hhigh : c.toNat < 0x7F) :
    isBlank c = false := by
  simp only [isBlank, Bool.or_eq_false_iff, Bool.and_eq_false_iff, decide_eq_false_iff_not,
    beq_eq_false_iff_ne]
  omega

section

variable {α : Type} {p : α → Bool} {as : List α}

theorem dropWhile_eq_self (h : ∀ a, as.head? = some a → p a = false) : as.dropWhile p = as := by
  cases as with
  | nil => rfl
  | cons a as => simp [h a rfl]

theorem head?_dropWhile {a : α} (h : (as.dropWhile p).head? = some a) : p a = false := by
  have hnot := List.head?_dropWhile_not p as
  rwa [h] at hnot

/-- Nothing is dropped where neither end satisfies `p`. -/
theorem trim_eq_self (hfirst : ∀ a, as.head? = some a → p a = false)
    (hlast : ∀ a, as.getLast? = some a → p a = false) : trim p as = as := by
  rw [trim, dropWhile_eq_self hfirst, dropWhile_eq_self, List.reverse_reverse]
  intro a ha
  exact hlast a (List.head?_reverse ▸ ha)

theorem head?_trim {a : α} (h : (trim p as).head? = some a) : p a = false := by
  have hprefix : trim p as <+: as.dropWhile p := by
    have hsuffix := List.dropWhile_suffix (l := (as.dropWhile p).reverse) p
    rwa [← List.reverse_prefix, List.reverse_reverse] at hsuffix
  obtain ⟨rest, hrest⟩ := hprefix
  have hhead : (as.dropWhile p).head? = some a := by
    rw [← hrest, List.head?_append, h]
    rfl
  exact head?_dropWhile hhead

theorem getLast?_trim {a : α} (h : (trim p as).getLast? = some a) : p a = false := by
  rw [trim, List.getLast?_reverse] at h
  exact head?_dropWhile h

end

def Unindented (t : Text) : Prop := ∀ p, t.toList.head? = some p → isBlank p.toChar = false

theorem unindented_strip (t : Text) : Unindented (strip t) := by
  intro p hp
  rw [strip, toList_ofList] at hp
  exact head?_trim (p := fun p : CodePoint => isBlank p.toChar) hp

theorem strip_eq_self {t : Text} (hfirst : Unindented t)
    (hlast : ∀ p, t.toList.getLast? = some p → isBlank p.toChar = false) : strip t = t := by
  rw [strip, trim_eq_self hfirst hlast, ofList_toList]

theorem strip_strip (t : Text) : strip (strip t) = strip t := by
  apply strip_eq_self (unindented_strip t)
  intro p hp
  rw [strip, toList_ofList] at hp
  exact getLast?_trim (p := fun p : CodePoint => isBlank p.toChar) hp

end NodeScript.Text
