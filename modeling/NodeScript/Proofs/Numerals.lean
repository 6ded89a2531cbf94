import Mathlib.Data.List.Basic
import Mathlib.Data.List.Induction
import Mathlib.Data.List.TakeWhile
import Mathlib.Data.Nat.Digits.Defs
import NodeScript.Value.Number

/-!
Texts that read as integers. Between blanks, such a text is a sign or none and then decimal digits
of any script, as many as the limit allows. An integer is looked for before a float is, so that
these are all, and a numeral that is too long is at best a float.
-/

namespace NodeScript

namespace Text

section

variable {α : Type} {p : α → Bool} {ls rs : List α}

theorem trim_append (hls : ∀ a ∈ ls, p a) (hrs : ∀ a ∈ rs, p a) (as : List α) :
    trim p (ls ++ as ++ rs) = trim p as := by
  unfold trim
  rw [List.append_assoc, List.dropWhile_append_of_pos hls, List.dropWhile_append]
  split
  · rename_i hempty
    rw [List.isEmpty_iff.mp hempty, List.dropWhile_eq_nil_iff.mpr hrs]
  · have hreverse : ∀ a ∈ rs.reverse, p a := fun a ha => hrs a (List.mem_reverse.mp ha)
    rw [List.reverse_append, List.dropWhile_append_of_pos hreverse]

theorem exists_eq_append_trim (p : α → Bool) (as : List α) :
    ∃ ls rs, (∀ a ∈ ls, p a) ∧ (∀ a ∈ rs, p a) ∧ as = ls ++ trim p as ++ rs := by
  refine ⟨as.takeWhile p, ((as.dropWhile p).reverse.takeWhile p).reverse,
    fun a ha => List.mem_takeWhile_imp ha,
    fun a ha => List.mem_takeWhile_imp (List.mem_reverse.mp ha), ?_⟩
  rw [trim, List.append_assoc, ← List.reverse_append, List.takeWhile_append_dropWhile,
    List.reverse_reverse, List.takeWhile_append_dropWhile]

end

/-- The text is `t` between blanks. -/
def Frames (s t : Text) : Prop :=
  ∃ left right : Text, left.isBlankText ∧ right.isBlankText ∧ s = left ++ t ++ right

theorem chars_eq_map (t : Text) : t.chars = t.toList.map CodePoint.toChar := by
  simp [chars, toList, run, List.map_flatMap, CodePoint.toChar, Function.comp_def]

theorem isBlankText_iff {t : Text} : t.isBlankText ↔ ∀ p ∈ t.toList, isBlank p.toChar := by
  rw [isBlankText, chars_eq_map, List.all_map, List.all_eq_true]
  rfl

theorem Frames.strip_eq {s t : Text} (h : s.Frames t) : strip s = strip t := by
  obtain ⟨left, right, hleft, hright, rfl⟩ := h
  rw [strip, strip, toList_append, toList_append,
    trim_append (isBlankText_iff.mp hleft) (isBlankText_iff.mp hright)]

theorem frames_strip (s : Text) : s.Frames (strip s) := by
  obtain ⟨ls, rs, hls, hrs, hs⟩ := exists_eq_append_trim (fun p => isBlank p.toChar) s.toList
  refine ⟨ofList ls, ofList rs, isBlankText_iff.mpr ?_, isBlankText_iff.mpr ?_, ?_⟩
  · rwa [toList_ofList]
  · rwa [toList_ofList]
  · apply toList_injective
    rw [toList_append, toList_append, toList_ofList, toList_ofList, strip, toList_ofList]
    exact hs

theorem mem_strip {t : Text} {p : CodePoint} (h : p ∈ t.toList) (hp : isBlank p.toChar = false) :
    p ∈ (strip t).toList := by
  obtain ⟨left, right, hleft, hright, ht⟩ := frames_strip t
  rw [ht, toList_append, toList_append, List.mem_append, List.mem_append] at h
  rcases h with (hmem | hmem) | hmem
  · exact absurd (isBlankText_iff.mp hleft p hmem) (by simp [hp])
  · exact hmem
  · exact absurd (isBlankText_iff.mp hright p hmem) (by simp [hp])

theorem trim_isMargin_strip (s : Text) : trim isMargin (strip s).chars = (strip s).chars := by
  have hmargin : ∀ {p : CodePoint}, isBlank p.toChar = false → isMargin p.toChar = false := by
    intro p hp
    rw [isMargin, hp, Bool.false_and]
  rw [chars_eq_map]
  apply trim_eq_self
  · intro c hc
    rw [List.head?_map] at hc
    obtain ⟨p, hp, rfl⟩ := Option.map_eq_some_iff.mp hc
    exact hmargin (unindented_strip s p hp)
  · intro c hc
    rw [List.getLast?_map] at hc
    obtain ⟨p, hp, rfl⟩ := Option.map_eq_some_iff.mp hc
    rw [strip, toList_ofList] at hp
    exact hmargin (getLast?_trim (p := fun p : CodePoint => isBlank p.toChar) hp)

theorem strip_of_no_blank {t : Text} (h : ∀ p ∈ t.toList, isBlank p.toChar = false) :
    strip t = t :=
  strip_eq_self (fun p hp => h p (List.mem_of_head? hp)) fun p hp => h p (List.mem_of_getLast? hp)

theorem chars_ofList (cs : List Char) : chars (String.ofList cs) = cs := by
  rw [chars, String.toList_ofList]
  exact List.append_nil cs

/-- No half of a surrogate pair is in a text whose characters all belong to it. -/
theorem eq_ofList_chars {t : Text} (h : '\uFFFD' ∉ t.chars) : t = String.ofList t.chars := by
  apply toList_injective
  rw [toList_coe, String.toList_ofList, chars_eq_map, List.map_map]
  rw [chars_eq_map] at h
  refine (List.map_id _).symm.trans (List.map_congr_left fun p hp => ?_)
  cases p with
  | char c => rfl
  | half e => exact absurd (List.mem_map.mpr ⟨_, hp, rfl⟩) h

/-- No script has a digit among the blanks. -/
theorem isBlank_eq_false_of_digit? {c : Char} {d : Nat} (h : digit? c = some d) :
    isBlank c = false := by
  obtain ⟨z, hz, rfl⟩ := Option.map_eq_some_iff.mp h
  have hrange := List.find?_some hz
  simp only [Bool.and_eq_true, decide_eq_true_eq] at hrange
  have hdigits : ∀ z ∈ zeros, ∀ i < 10, isBlank (Char.ofNat (z + i)) = false := by decide +kernel
  have hc := hdigits z (List.mem_of_find?_eq_some hz) (c.toNat - z) (by omega)
  rwa [Nat.add_sub_cancel' hrange.1, Char.ofNat_toNat] at hc

end Text

namespace Decimal

/-- The characters are an integer numeral with these digits and this value: at most one sign, then
decimal digits of any script, the most significant first. -/
inductive Numeral (ds : List Nat) : List Char → Int → Prop
  | unsigned {cs : List Char} (h : cs.map Text.digit? = ds.map some) :
    Numeral ds cs (Nat.ofDigits 10 ds.reverse : Nat)
  | plus {cs : List Char} (h : cs.map Text.digit? = ds.map some) :
    Numeral ds ('+' :: cs) (Nat.ofDigits 10 ds.reverse : Nat)
  | minus {cs : List Char} (h : cs.map Text.digit? = ds.map some) :
    Numeral ds ('-' :: cs) (-(Nat.ofDigits 10 ds.reverse : Nat))

theorem positional_eq_ofDigits (ds : List Nat) : positional ds = Nat.ofDigits 10 ds.reverse := by
  -- From the right, since the last digit counts least.
  induction ds using List.reverseRecOn with
  | nil => rfl
  | append_singleton ds d ih =>
    have hstep : positional (ds ++ [d]) = 10 * positional ds + d := by
      rw [positional, List.foldl_append]
      rfl
    rw [hstep, ih, List.reverse_append]
    simp [Nat.ofDigits_cons, Nat.add_comm]

theorem takeDigits_eq_iff {cs : List Char} {ds : List Nat} :
    takeDigits cs = (ds, []) ↔ cs.map Text.digit? = ds.map some := by
  induction cs generalizing ds with
  | nil => cases ds <;> simp [takeDigits]
  | cons c cs ih =>
    rw [takeDigits]
    cases hc : Text.digit? c with
    | none => cases ds <;> simp [hc]
    | some d =>
      cases ds with
      | nil => simp
      | cons e ds =>
        have hrest := @ih ds
        rcases htake : takeDigits cs with ⟨es, rest⟩
        rw [htake, Prod.mk.injEq] at hrest
        simp [hc, and_assoc, hrest]

theorem splitDigits_of_no_separator {cs : List Char} (h : '_' ∉ cs) (afterDigit : Bool) :
    splitDigits afterDigit cs = some (takeDigits cs) := by
  induction cs generalizing afterDigit with
  | nil => rfl
  | cons c cs ih =>
    rw [List.mem_cons, not_or] at h
    unfold splitDigits
    rw [takeDigits]
    cases Text.digit? c with
    | some d =>
      dsimp only
      rw [ih h.2]
      rfl
    | none =>
      dsimp only
      rw [if_neg (Ne.symm h.1)]

theorem not_mem_of_digits {cs : List Char} {ds : List Nat} (h : cs.map Text.digit? = ds.map some)
    {c : Char} (hc : Text.digit? c = none) : c ∉ cs := by
  intro hmem
  have hnone : none ∈ ds.map some := h ▸ hc ▸ List.mem_map_of_mem hmem
  simp at hnone

theorem splitSign_of_digits {cs : List Char} {ds : List Nat}
    (h : cs.map Text.digit? = ds.map some) : splitSign cs = (false, cs) := by
  unfold splitSign
  split
  · exact absurd List.mem_cons_self (not_mem_of_digits h (by decide))
  · exact absurd List.mem_cons_self (not_mem_of_digits h (by decide))
  · rfl

theorem numeral_iff {ds : List Nat} {cs : List Char} {n : Int} :
    Numeral ds cs n ↔ (splitSign cs).2.map Text.digit? = ds.map some ∧
      n = applySign (splitSign cs).1 (positional ds) := by
  rw [positional_eq_ofDigits]
  constructor
  · rintro (h | h | h)
    · rw [splitSign_of_digits h]
      exact ⟨h, rfl⟩
    · exact ⟨h, rfl⟩
    · exact ⟨h, rfl⟩
  · unfold splitSign
    split
    · rintro ⟨h, rfl⟩
      exact .minus h
    · rintro ⟨h, rfl⟩
      exact .plus h
    · rintro ⟨h, rfl⟩
      exact .unsigned h

namespace Numeral

variable {ds es : List Nat} {cs : List Char} {m n : Int}

theorem digits_unique (h : Numeral ds cs m) (h' : Numeral es cs n) : ds = es := by
  have hmap := (numeral_iff.mp h).1.symm.trans (numeral_iff.mp h').1
  exact List.map_injective_iff.mpr (Option.some_injective Nat) hmap

theorem not_mem (h : Numeral ds cs n) {c : Char} (hplus : c ≠ '+') (hminus : c ≠ '-')
    (hc : Text.digit? c = none) : c ∉ cs := by
  cases h with
  | unsigned h => exact not_mem_of_digits h hc
  | plus h => exact List.not_mem_cons_of_ne_of_not_mem hplus (not_mem_of_digits h hc)
  | minus h => exact List.not_mem_cons_of_ne_of_not_mem hminus (not_mem_of_digits h hc)

theorem isBlank_eq_false (h : Numeral ds cs n) {c : Char} (hc : c ∈ cs) :
    Text.isBlank c = false := by
  cases hd : Text.digit? c with
  | some d => exact Text.isBlank_eq_false_of_digit? hd
  | none =>
    by_cases hplus : c = '+'
    · rw [hplus]
      rfl
    · by_cases hminus : c = '-'
      · rw [hminus]
        rfl
      · exact absurd hc (h.not_mem hplus hminus hd)

theorem strip_eq (h : Numeral ds cs n) :
    Text.strip (String.ofList cs) = (String.ofList cs : Text) := by
  apply Text.strip_of_no_blank
  intro p hp
  rw [Text.toList_coe, String.toList_ofList] at hp
  obtain ⟨c, hc, rfl⟩ := List.mem_map.mp hp
  exact h.isBlank_eq_false hc

end Numeral

/-- In a text without separators and without blanks at its ends, an integer is read exactly if the
whole of it is a numeral within the limit. -/
theorem readInteger_eq_ok_iff {s : Text} (hstrip : Text.trim Text.isMargin s.chars = s.chars)
    (hseparator : '_' ∉ s.chars) {n : Int} :
    readInteger s = .ok n ↔
      ∃ ds, Numeral ds s.chars n ∧ 1 ≤ ds.length ∧ ds.length ≤ digitLimit := by
  have hdigits : '_' ∉ (splitSign s.chars).2 :=
    fun hmem => hseparator ((sublist_splitSign s.chars).subset hmem)
  simp only [numeral_iff]
  unfold readInteger
  rw [hstrip]
  generalize splitSign s.chars = signed at hdigits ⊢
  obtain ⟨negative, cs⟩ := signed
  dsimp only at hdigits ⊢
  rw [splitDigits_of_no_separator hdigits]
  rcases htake : takeDigits cs with ⟨ds, rest⟩
  dsimp only
  constructor
  · intro h
    split at h
    · cases h
    · rename_i hshort
      split at h
      · cases h
      · rename_i hwhole
        simp only [List.isEmpty_iff, not_or, not_not] at hwhole
        cases h
        refine ⟨ds, ⟨takeDigits_eq_iff.mp ?_, rfl⟩, List.length_pos_iff.mpr hwhole.1, by omega⟩
        rw [htake, hwhole.2]
  · rintro ⟨es, ⟨hes, rfl⟩, hpos, hle⟩
    have heq := htake.symm.trans (takeDigits_eq_iff.mpr hes)
    cases heq
    have hne : ds ≠ [] := List.length_pos_iff.mp hpos
    rw [if_neg (Nat.not_lt.mpr hle), if_neg (by simp [hne])]

end Decimal

namespace Value

open Decimal

theorem toNumber?_text_eq_int_iff {s : Text} {n : Int} :
    (text s).toNumber? = some (.int n) ↔
      ∃ ds, Numeral ds (Text.strip s).chars n ∧ 1 ≤ ds.length ∧ ds.length ≤ digitLimit := by
  change readNumber s = some (.int n) ↔ _
  unfold readNumber
  dsimp only
  by_cases hseparator : '_' ∈ (Text.strip s).chars
  · rw [if_pos (List.contains_iff_mem.mpr hseparator)]
    refine ⟨nofun, ?_⟩
    rintro ⟨ds, h, -⟩
    exact absurd hseparator (h.not_mem (by decide) (by decide) (by decide))
  · rw [if_neg (fun h => hseparator (List.contains_iff_mem.mp h)),
      ← readInteger_eq_ok_iff (Text.trim_isMargin_strip s) hseparator]
    cases readInteger (Text.strip s) with
    | ok m => simp
    | error e => simp

theorem toNumber?_text_eq_none {s : Text} (h : '_' ∈ (Text.strip s).chars) :
    (text s).toNumber? = none := by
  change readNumber s = none
  unfold readNumber
  dsimp only
  rw [if_pos (List.contains_iff_mem.mpr h)]

theorem toNumber?_text_of_frames {s t : Text} (h : t.Frames s) :
    (text t).toNumber? = (text s).toNumber? := by
  change readNumber t = readNumber s
  unfold readNumber
  rw [h.strip_eq]

/-- A text reads as an integer exactly if, between blanks, it is a numeral with not too many digits,
and then as the value of that numeral. A separator anywhere keeps it from being read, too many
digits keep it from being an integer, and more blanks around it make no difference. -/
theorem text_reads_as_integer (s : Text) :
    (∀ n, (text s).toNumber? = some (.int n) ↔
      ∃ cs ds, s.Frames (String.ofList cs) ∧ Numeral ds cs n ∧ 1 ≤ ds.length ∧
        ds.length ≤ digitLimit) ∧
    (∀ t, s.Frames t → .char '_' ∈ t.toList → (text s).toNumber? = none) ∧
    (∀ cs ds n, s.Frames (String.ofList cs) → Numeral ds cs n → digitLimit < ds.length →
      ∀ m, (text s).toNumber? ≠ some (.int m)) ∧
    ∀ t, t.Frames s → (text t).toNumber? = (text s).toNumber? := by
  have hstrip : ∀ {cs ds n}, s.Frames (String.ofList cs) → Numeral ds cs n →
      (Text.strip s).chars = cs := by
    intro cs ds n hf hn
    rw [hf.strip_eq, hn.strip_eq, Text.chars_ofList]
  refine ⟨fun n => ?_, ?_, ?_, fun t ht => toNumber?_text_of_frames ht⟩
  · rw [toNumber?_text_eq_int_iff]
    constructor
    · rintro ⟨ds, hn, hpos, hle⟩
      refine ⟨(Text.strip s).chars, ds, ?_, hn, hpos, hle⟩
      rw [← Text.eq_ofList_chars (hn.not_mem (by decide) (by decide) (by decide))]
      exact Text.frames_strip s
    · rintro ⟨cs, ds, hf, hn, hpos, hle⟩
      exact ⟨ds, hstrip hf hn ▸ hn, hpos, hle⟩
  · intro t ht hmem
    apply toNumber?_text_eq_none
    rw [ht.strip_eq, Text.chars_eq_map]
    exact List.mem_map.mpr ⟨_, Text.mem_strip hmem rfl, rfl⟩
  · intro cs ds n hf hn hlong m hm
    obtain ⟨es, hm, -, hle⟩ := toNumber?_text_eq_int_iff.mp hm
    rw [hstrip hf hn] at hm
    rw [hn.digits_unique hm] at hlong
    omega

end Value

end NodeScript
