import Mathlib.Data.List.Nodup
import NodeScript.Graph.Tag
import NodeScript.Proofs.Numerals

/-!
What a tag names. A text names the member whose name or value it is, in large or small letters, and
no text names two members. So it does not matter that a value is looked up first as it stands, nor
in which order the members are gone through after that.

Letters are compared in lower case. How lower case is written depends on tables for all scripts, of
which the names of members, being ASCII, need to know very little; `LowerCasing` says what.
-/

namespace NodeScript

def CodePoint.isAscii : CodePoint → Bool
  | char c => c.toNat < 0x80
  | half _ => false

/-- The sign of the unit of temperature, a capital letter beyond ASCII. -/
def kelvin : Char := Char.ofNat 0x212A

/-- A way to write texts in lower case. What becomes of a code point may depend on what stands
before it, the nearest first, and after it. Of ASCII only the capitals change, and of all other code
points only the Kelvin sign becomes ASCII. -/
structure LowerCasing where
  form : List CodePoint → CodePoint → List CodePoint → List CodePoint
  form_ascii : ∀ before (c : Char) after, c.toNat < 0x80 →
    form before (.char c) after = [.char c.toLower]
  form_kelvin : ∀ before after, form before (.char kelvin) after = [.char 'k']
  form_other : ∀ before p after, p.isAscii = false → p ≠ .char kelvin →
    ∃ q ∈ form before p after, q.isAscii = false

namespace LowerCasing

variable (l : LowerCasing)

def lowerAfter (before : List CodePoint) : List CodePoint → List CodePoint
  | [] => []
  | p :: ps => l.form before p ps ++ lowerAfter (p :: before) ps

def lower (t : Text) : List CodePoint := l.lowerAfter [] t.toList

/-- The text is the name or the value of the member, but for the case of letters. -/
def Names {α : Type} [Vocabulary α] (t : Text) (m : α) : Prop :=
  l.lower t = l.lower (Vocabulary.name m) ∨ l.lower t = l.lower (Vocabulary.value m)

end LowerCasing

theorem toLower_eq_self {c : Char} (h : 0x80 ≤ c.toNat) : c.toLower = c := by
  unfold Char.toLower
  rw [dif_neg]
  rintro ⟨-, hle⟩
  have hle : c.toNat ≤ 90 := hle
  omega

theorem toNat_toLower_lt {c : Char} (h : c.toNat < 0x80) : c.toLower.toNat < 0x80 := by
  have hall : ∀ n < 0x80, (Char.ofNat n).toLower.toNat < 0x80 := by decide
  have hc := hall c.toNat h
  rwa [Char.ofNat_toNat] at hc

theorem foldCase_eq_toLower {c : Char} (h : c ≠ kelvin) : Tag.foldCase c = c.toLower := by
  rw [Tag.foldCase, if_neg]
  intro hc
  exact h (by rw [kelvin, ← hc, Char.ofNat_toNat])

theorem ne_kelvin_of_ascii {c : Char} (h : c.toNat < 0x80) : c ≠ kelvin := by
  rintro rfl
  exact absurd h (by decide)

theorem le_foldCase_of_not_ascii {p : CodePoint} (ha : p.isAscii = false) (hk : p ≠ .char kelvin) :
    0x80 ≤ (Tag.foldCase p.toChar).toNat := by
  cases p with
  | half h =>
    change 0x80 ≤ (Tag.foldCase '\uFFFD').toNat
    decide
  | char c =>
    have hle : 0x80 ≤ c.toNat := by simpa [CodePoint.isAscii] using ha
    have hne : c ≠ kelvin := fun h => hk (h ▸ rfl)
    rwa [CodePoint.toChar, foldCase_eq_toLower hne, toLower_eq_self hle]

/-- Folding each code point by itself is one way to write lower case. -/
instance : Inhabited LowerCasing where
  default :=
    { form := fun _ p _ => [.char (Tag.foldCase p.toChar)]
      form_ascii := fun _ _ _ hc => by
        rw [CodePoint.toChar, foldCase_eq_toLower (ne_kelvin_of_ascii hc)]
      form_kelvin := fun _ _ => rfl
      form_other := fun _ _ _ ha hk => by
        refine ⟨_, List.mem_singleton_self _, ?_⟩
        exact decide_eq_false (Nat.not_lt.mpr (le_foldCase_of_not_ascii ha hk)) }

theorem Tag.fold_eq (t : Text) : Tag.fold t = t.toList.map fun p => Tag.foldCase p.toChar := by
  rw [Tag.fold, Text.chars_eq_map, List.map_map]
  rfl

theorem Tag.fold_coe (s : String) : Tag.fold s = s.toList.map Tag.foldCase := by
  rw [Tag.fold_eq, Text.toList_coe, List.map_map]
  rfl

namespace LowerCasing

variable {l : LowerCasing}

theorem form_eq {p : CodePoint} (h : p.isAscii = true ∨ p = .char kelvin)
    (before after : List CodePoint) :
    l.form before p after = [.char (Tag.foldCase p.toChar)] := by
  rcases h with h | rfl
  · cases p with
    | half h => cases h
    | char c =>
      have hc : c.toNat < 0x80 := of_decide_eq_true h
      rw [l.form_ascii before c after hc, CodePoint.toChar,
        foldCase_eq_toLower (ne_kelvin_of_ascii hc)]
  · exact l.form_kelvin before after

/-- Lower case is ASCII exactly where folding is, and then they are the same. -/
theorem lowerAfter_eq_iff {cs : List Char} (hcs : ∀ c ∈ cs, c.toNat < 0x80)
    (before ps : List CodePoint) :
    l.lowerAfter before ps = cs.map .char ↔ ps.map (fun p => Tag.foldCase p.toChar) = cs := by
  induction ps generalizing before cs with
  | nil => cases cs <;> simp [lowerAfter]
  | cons p ps ih =>
    rw [lowerAfter, List.map_cons]
    by_cases hp : p.isAscii = true ∨ p = .char kelvin
    · rw [form_eq hp, List.singleton_append]
      cases cs with
      | nil => simp
      | cons c cs =>
        rw [List.map_cons, List.cons_eq_cons, List.cons_eq_cons,
          ih fun d hd => hcs d (List.mem_cons_of_mem c hd), CodePoint.char.injEq]
    · -- Something beyond ASCII stays, on both sides.
      rw [not_or, Bool.not_eq_true] at hp
      constructor
      · intro h
        obtain ⟨q, hq, hbeyond⟩ := l.form_other before p ps hp.1 hp.2
        have hmem : q ∈ cs.map CodePoint.char := h ▸ List.mem_append_left _ hq
        obtain ⟨c, hc, rfl⟩ := List.mem_map.mp hmem
        simp [CodePoint.isAscii, hcs c hc] at hbeyond
      · rintro rfl
        have hlt := hcs _ List.mem_cons_self
        have hle := le_foldCase_of_not_ascii hp.1 hp.2
        omega

theorem lower_eq_iff {s : String} (hs : ∀ c ∈ s.toList, c.toNat < 0x80) (t : Text) :
    l.lower t = l.lower s ↔ Tag.fold s = Tag.fold t := by
  have hfold : ∀ c ∈ Tag.fold s, c.toNat < 0x80 := by
    intro c hc
    rw [Tag.fold_coe] at hc
    obtain ⟨d, hd, rfl⟩ := List.mem_map.mp hc
    have hlt := hs d hd
    rw [foldCase_eq_toLower (ne_kelvin_of_ascii hlt)]
    exact toNat_toLower_lt hlt
  have hlower : l.lower s = (Tag.fold s).map .char :=
    (lowerAfter_eq_iff hfold [] _).mpr (Tag.fold_eq s).symm
  rw [hlower, lower, lowerAfter_eq_iff hfold, ← Tag.fold_eq, eq_comm]

end LowerCasing

namespace Tag

section

variable (α : Type) [Vocabulary α]

/-- The member with exactly this value. -/
def valued? (t : Text) : Option α := (Vocabulary.all : List α).find? fun m => Vocabulary.value m = t

def spelt? (t : Text) : Option α :=
  (Vocabulary.all : List α).find? fun m =>
    fold (Vocabulary.name m) = fold t ∨ fold (Vocabulary.value m) = fold t

theorem member?_eq (t : Text) : member? α t = (valued? α t).or (spelt? α t) := rfl

def Spells {α : Type} [Vocabulary α] (t : Text) (m : α) : Prop :=
  fold (Vocabulary.name m) = fold t ∨ fold (Vocabulary.value m) = fold t

/-- The names and the values of members are ASCII. A value is the name without underscores but for
the case of letters, and no two members have the same value. -/
structure Distinct : Prop where
  mem_all : ∀ m : α, m ∈ (Vocabulary.all : List α)
  name_ascii : ∀ m : α, ∀ c ∈ (Vocabulary.name m).toList, c.toNat < 0x80
  value_ascii : ∀ m : α, ∀ c ∈ (Vocabulary.value m).toList, c.toNat < 0x80
  fold_name : ∀ m : α, (fold (Vocabulary.name m)).filter (· ≠ '_') = fold (Vocabulary.value m)
  nodup : ((Vocabulary.all : List α).map fun m => fold (Vocabulary.value m)).Nodup

end

section

variable {α : Type} [Vocabulary α] {t : Text} {m m' : α}

theorem distinct_of_all (hmem : ∀ m : α, m ∈ (Vocabulary.all : List α))
    (h : (Vocabulary.all : List α).all (fun m =>
      (Vocabulary.name m).toList.all (fun c => decide (c.toNat < 0x80)) &&
      (Vocabulary.value m).toList.all (fun c => decide (c.toNat < 0x80)) &&
      decide (((Vocabulary.name m).toList.map foldCase).filter (· ≠ '_') =
        (Vocabulary.value m).toList.map foldCase)) = true ∧
      ((Vocabulary.all : List α).map fun m => (Vocabulary.value m).toList.map foldCase).Nodup) :
    Distinct α := by
  simp only [← fold_coe] at h
  obtain ⟨hall, hnodup⟩ := h
  have hm (m : α) := List.all_eq_true.mp hall m (hmem m)
  simp only [List.all_eq_true, Bool.and_eq_true, decide_eq_true_eq] at hm
  exact ⟨hmem, fun m => (hm m).1.1, fun m => (hm m).1.2, fun m => (hm m).2, hnodup⟩

theorem distinct_nodeKind : Distinct NodeKind :=
  distinct_of_all NodeKind.mem_all (by decide +kernel)

theorem distinct_dataType : Distinct DataType :=
  distinct_of_all (fun m => by cases m <;> decide) (by decide +kernel)

theorem distinct_direction : Distinct Direction :=
  distinct_of_all (fun m => by cases m <;> decide) (by decide +kernel)

namespace Distinct

variable (h : Distinct α)

include h

theorem names_iff (l : LowerCasing) (t : Text) (m : α) : l.Names t m ↔ Spells t m :=
  or_congr (LowerCasing.lower_eq_iff (h.name_ascii m) t)
    (LowerCasing.lower_eq_iff (h.value_ascii m) t)

/-- Without its underscores, a text that spells a member is the value of it. -/
theorem filter_fold (hm : Spells t m) :
    (fold t).filter (· ≠ '_') = fold (Vocabulary.value m) := by
  rcases hm with hm | hm
  · rw [← hm, h.fold_name]
  · rw [← hm, ← h.fold_name, List.filter_filter]
    simp

theorem eq_of_spells (hm : Spells t m) (hm' : Spells t m') : m = m' := by
  have heq := (h.filter_fold hm).symm.trans (h.filter_fold hm')
  exact List.inj_on_of_nodup_map h.nodup (h.mem_all m) (h.mem_all m') heq

theorem spelt?_eq_some_iff (t : Text) (m : α) : spelt? α t = some m ↔ Spells t m := by
  have hfound {m : α} (hm : spelt? α t = some m) : Spells t m := by
    have hm := List.find?_some hm
    rwa [decide_eq_true_iff] at hm
  refine ⟨hfound, fun hm => ?_⟩
  cases hspelt : spelt? α t with
  | none =>
    have hnone := List.find?_eq_none.mp hspelt m (h.mem_all m)
    rw [decide_eq_true_iff] at hnone
    exact absurd hm hnone
  | some m' => rw [h.eq_of_spells hm (hfound hspelt)]

/-- What has exactly the value of a member is spelt like no other. -/
theorem spelt?_of_valued? (hm : valued? α t = some m) : spelt? α t = some m := by
  have hvalue := List.find?_some hm
  rw [decide_eq_true_iff] at hvalue
  exact (h.spelt?_eq_some_iff t m).mpr (.inr (hvalue ▸ rfl))

theorem member?_eq_spelt? (t : Text) : member? α t = spelt? α t := by
  rw [member?_eq]
  cases hm : valued? α t with
  | none => rfl
  | some m => rw [h.spelt?_of_valued? hm, Option.some_or]

end Distinct

end

/-- What is kept of a text: without its blank margins, what follows the name of a vocabulary and a
dot, unless nothing visible does, and else all of it. -/
inductive Keeps (t : Text) : Text → Prop
  | rest {title rest : Text} (htitle : title ∈ vocabularies)
      (ht : Text.strip t = title ++ "." ++ rest) (hrest : Text.strip rest ≠ "") :
      Keeps t (Text.strip rest)
  | all (h : ∀ title ∈ vocabularies, ∀ rest, Text.strip t = title ++ "." ++ rest →
      Text.strip rest = "") : Keeps t (Text.strip t)

def front (t : Text) : Text := .ofList (t.toList.takeWhile (· ≠ .char '.'))

def rear (t : Text) : Text := .ofList ((t.toList.dropWhile (· ≠ .char '.')).drop 1)

theorem unqualified_eq (t : Text) :
    unqualified t = if vocabularies.contains (front (Text.strip t)) ∧
      Text.strip (rear (Text.strip t)) ≠ "" then Text.strip (rear (Text.strip t))
    else Text.strip t := rfl

theorem front_rear_of_title {title : Text} (h : title ∈ vocabularies) (rest : Text) :
    front (title ++ "." ++ rest) = title ∧ rear (title ++ "." ++ rest) = rest := by
  have hdot : ∀ title ∈ vocabularies, ∀ p ∈ title.toList, decide (p ≠ .char '.') = true := by
    decide
  have hlist : (title ++ "." ++ rest).toList = title.toList ++ .char '.' :: rest.toList := by
    rw [Text.toList_append, Text.toList_append, Text.toList_coe, List.append_assoc]
    rfl
  rw [front, rear, hlist, List.takeWhile_append_of_pos (hdot title h),
    List.dropWhile_append_of_pos (hdot title h)]
  simp [Text.ofList_toList]

theorem eq_front_rear {t : Text} (h : Text.strip (rear t) ≠ "") :
    t = front t ++ "." ++ rear t := by
  apply Text.toList_injective
  have hsplit := List.takeWhile_append_dropWhile (p := fun p => decide (p ≠ CodePoint.char '.'))
    (l := t.toList)
  rw [Text.toList_append, Text.toList_append, front, rear, Text.toList_ofList, Text.toList_ofList]
  unfold rear at h
  cases hdrop : t.toList.dropWhile (fun p => decide (p ≠ CodePoint.char '.')) with
  | nil =>
    rw [hdrop] at h
    exact absurd rfl h
  | cons p ps =>
    have hp : p = .char '.' := by
      have hhead := Text.head?_dropWhile (congrArg List.head? hdrop)
      simpa using hhead
    rw [hdrop, hp] at hsplit
    rw [List.drop_one, List.tail_cons, List.append_assoc]
    exact hsplit.symm

theorem keeps_unqualified (t : Text) : Keeps t (unqualified t) := by
  rw [unqualified_eq]
  split
  · rename_i h
    obtain ⟨htitle, hrest⟩ := h
    exact .rest (List.contains_iff_mem.mp htitle) (eq_front_rear hrest) hrest
  · rename_i h
    refine .all fun title htitle rest ht => ?_
    obtain ⟨hfront, hrear⟩ := front_rear_of_title htitle rest
    rw [ht, hfront, hrear] at h
    by_contra hne
    exact h ⟨List.contains_iff_mem.mpr htitle, hne⟩

theorem Keeps.eq_unqualified {t kept : Text} (h : Keeps t kept) : kept = unqualified t := by
  rw [unqualified_eq]
  cases h with
  | @rest title rest htitle ht hrest =>
    obtain ⟨hfront, hrear⟩ := front_rear_of_title htitle rest
    rw [ht, hfront, hrear, if_pos ⟨List.contains_iff_mem.mpr htitle, hrest⟩]
  | all h =>
    rw [if_neg]
    rintro ⟨htitle, hrest⟩
    exact hrest (h _ (List.contains_iff_mem.mp htitle) _ (eq_front_rear hrest))

theorem keeps_iff (t kept : Text) : Keeps t kept ↔ kept = unqualified t :=
  ⟨Keeps.eq_unqualified, fun h => h ▸ keeps_unqualified t⟩

theorem resolve_text_eq {α : Type} [Vocabulary α] (default? : Option α) (t : Text) :
    resolve α default? (.text t) =
      if unqualified t = "" then
        match default? with
        | some m => .ok m
        | none => .error (.missingTag (Vocabulary.title α))
      else
        match member? α (unqualified t) with
        | some m => .ok m
        | none => .error (.unknownTag (Vocabulary.title α) (unqualified t)) := by
  have htag : ofValue (.text t) = .ok (ofText (unqualified t)) := rfl
  unfold resolve
  rw [htag]
  generalize unqualified t = kept
  rfl

/-- How a text of which `kept` is kept is resolved in a vocabulary. -/
structure Resolves (l : LowerCasing) (α : Type) [Vocabulary α] (t kept : Text) : Prop where
  unique : ∀ m m' : α, l.Names kept m → l.Names kept m' → m = m'
  agree : ∀ m : α, valued? α kept = some m → spelt? α kept = some m
  named : kept ≠ "" → ∀ (default? : Option α) (m : α),
    resolve α default? (.text t) = .ok m ↔ l.Names kept m
  unknown : kept ≠ "" → (∀ m : α, ¬l.Names kept m) → ∀ default? : Option α,
    resolve α default? (.text t) = .error (.unknownTag (Vocabulary.title α) kept)
  default : kept = "" → ∀ m : α, resolve α (some m) (.text t) = .ok m
  missing : kept = "" → resolve α none (.text t) = .error (.missingTag (Vocabulary.title α))

theorem Distinct.resolves {α : Type} [Vocabulary α] (h : Distinct α) (l : LowerCasing) (t : Text) :
    Resolves l α t (unqualified t) where
  unique m m' hm hm' := by
    rw [h.names_iff] at hm hm'
    exact h.eq_of_spells hm hm'
  agree _ := h.spelt?_of_valued?
  named hne default? m := by
    rw [resolve_text_eq, if_neg hne, h.member?_eq_spelt?, h.names_iff, ← h.spelt?_eq_some_iff]
    cases spelt? α (unqualified t) <;> simp
  unknown hne hnone default? := by
    have hspelt : spelt? α (unqualified t) = none := by
      rw [Option.eq_none_iff_forall_ne_some]
      intro m hm
      rw [h.spelt?_eq_some_iff, ← h.names_iff l] at hm
      exact hnone m hm
    rw [resolve_text_eq, if_neg hne, h.member?_eq_spelt?, hspelt]
  default hempty m := by rw [resolve_text_eq, if_pos hempty]
  missing hempty := by rw [resolve_text_eq, if_pos hempty]

/-- Every text is resolved through what is kept of it, and that is one text. In each vocabulary it
names one member at most, and this member is the result. If nothing is kept the result is the
default, and without a default the tag is missing; any other text is an unknown tag. -/
theorem resolve_text (l : LowerCasing) (t : Text) :
    ∃ kept, (∀ k, Keeps t k ↔ k = kept) ∧
      Resolves l NodeKind t kept ∧ Resolves l DataType t kept ∧ Resolves l Direction t kept :=
  ⟨unqualified t, keeps_iff t, distinct_nodeKind.resolves l t, distinct_dataType.resolves l t,
    distinct_direction.resolves l t⟩

/-- A name behind the name of its vocabulary, with blanks and in letters of both cases. -/
theorem resolve_text_blanks :
    (default : LowerCasing).Names "whileLOOP" NodeKind.whileLoop ∧
      resolve NodeKind none (.text " NodeKind. whileLOOP") = .ok .whileLoop := by
  obtain ⟨kept, hkeeps, hkind, -, -⟩ := resolve_text default " NodeKind. whileLOOP"
  have hnames : (default : LowerCasing).Names "whileLOOP" NodeKind.whileLoop :=
    .inr (by decide +kernel)
  obtain rfl : "whileLOOP" = kept := (hkeeps _).mp ((keeps_iff _ _).mpr (by decide +kernel))
  exact ⟨hnames, (hkind.named (by decide) none _).mpr hnames⟩

end Tag

end NodeScript
