import NodeScript.Proofs.Legibility
import NodeScript.Proofs.Numerals
import NodeScript.Proofs.RoundTrip

/-!
Which entries of a document are skipped. Entries that are no objects, nodes and pins without an
identifier and wires without one of their ends leave nothing in a graph. Identifiers are read as
texts of any value, but only texts can be blank, so that an identifier is missing where there is no
value, an empty one or a blank text.
-/

namespace NodeScript

namespace Text

theorem isBlankText_eq_false {t : Text} {c : Char} (hc : c ∈ t.chars) (hblank : isBlank c = false) :
    t.isBlankText = false :=
  List.all_eq_false.mpr ⟨c, hc, Bool.eq_false_iff.mp hblank⟩

theorem isBlankText_coe_eq_false {s : String} {c : Char} (hc : c ∈ s.toList)
    (hblank : isBlank c = false) : isBlankText s = false :=
  isBlankText_eq_false (List.mem_append_left _ hc) hblank

theorem strip_eq_empty_iff {t : Text} : strip t = "" ↔ t.isBlankText = true := by
  constructor
  · intro h
    refine isBlankText_iff.mpr fun p hp => Bool.not_eq_false _ ▸ fun hblank => ?_
    have hmem := mem_strip hp hblank
    rw [h] at hmem
    cases hmem
  · intro h
    have hframes : t.Frames "" := ⟨t, "", h, rfl, by rw [append_empty, append_empty]⟩
    rw [hframes.strip_eq]
    rfl

theorem exists_visible_quote (t : Text) : ∃ c ∈ (quote t).toList, isBlank c = false := by
  refine ⟨quoteMark t.chars, ?_, ?_⟩
  · rw [quote, String.toList_ofList]
    exact List.mem_cons_self
  · unfold quoteMark
    split <;> decide

end Text

namespace Decimal

theorem exists_visible_signed {negative : Prop} [Decidable negative] {body : List Char}
    (h : ∃ c ∈ body, Text.isBlank c = false) :
    ∃ c ∈ (String.ofList (if negative then '-' :: body else body)).toList,
      Text.isBlank c = false := by
  obtain ⟨c, hc, hblank⟩ := h
  refine ⟨c, ?_, hblank⟩
  rw [String.toList_ofList]
  split
  · exact List.mem_cons_of_mem _ hc
  · exact hc

theorem exists_visible_numeral (n : Int) : ∃ c ∈ (numeral n).toList, Text.isBlank c = false := by
  obtain ⟨c, hc⟩ := List.exists_mem_of_ne_nil (natDigits n.natAbs) Nat.toDigits_ne_nil
  have hdigit := Nat.isDigit_of_mem_toDigits (by decide) (by decide) hc
  exact exists_visible_signed ⟨c, hc, Text.isBlank_eq_false_of_isDigit hdigit⟩

theorem exists_visible_layout (ds : List Char) (point : Int) :
    ∃ c ∈ layout ds point, Text.isBlank c = false := by
  unfold layout
  split
  · refine ⟨'.', ?_, by decide⟩
    split
    · simp
    · simp
  · exact ⟨'e', by simp, by decide⟩

theorem exists_visible_floatText (x : Float) :
    ∃ c ∈ (floatText x).toList, Text.isBlank c = false := by
  unfold floatText
  split
  · exact ⟨'n', by decide, by decide⟩
  · split
    · refine ⟨'i', ?_, by decide⟩
      split
      · decide
      · decide
    · refine exists_visible_signed ?_
      split
      · exact ⟨'0', by decide, by decide⟩
      · exact exists_visible_layout _ _

end Decimal

namespace Value

theorem eq_numeral_of_integerText {n : Int} {s : String} (h : integerText n = .ok s) :
    s = Decimal.numeral n := by
  unfold integerText Decimal.numeral? at h
  generalize Nat.pow 10 Decimal.digitLimit = bound at h
  by_cases hn : n.natAbs < bound
  · rw [if_pos hn] at h
    exact (Except.ok.inj h).symm
  · rw [if_neg hn] at h
    cases h

/-- Every value has something to be seen in its nested text. -/
theorem exists_visible_nested {levels : Nat} {v : Value} {s : String}
    (h : nested levels v = .ok s) : ∃ c ∈ s.toList, Text.isBlank c = false := by
  cases levels with
  | zero =>
    rw [nested] at h
    cases h
  | succ levels =>
  cases v with
  | null =>
    cases h
    exact ⟨'N', by decide, by decide⟩
  | bool b =>
    cases h
    exact ⟨'e', by cases b <;> decide, by decide⟩
  | int n =>
    rw [nested] at h
    rw [eq_numeral_of_integerText h]
    exact Decimal.exists_visible_numeral n
  | float x =>
    cases h
    exact Decimal.exists_visible_floatText x
  | text t =>
    cases h
    exact Text.exists_visible_quote t
  | symbol m =>
    cases h
    exact ⟨'<', by simp [toString], by decide⟩
  | list items =>
    obtain ⟨ts, -, rfl⟩ := Except.exists_of_map_eq_ok h
    exact ⟨'[', by simp, by decide⟩
  | record entries =>
    obtain ⟨ts, -, rfl⟩ := Except.exists_of_map_eq_ok h
    exact ⟨'\x7b', by simp, by decide⟩

/-- Only texts can be blank. -/
theorem isBlankText_plain {v : Value} {t : Text} (htext : ∀ s, v ≠ .text s)
    (h : v.plain = .ok t) : t.isBlankText = false := by
  unfold plain at h
  split at h
  · exact absurd rfl (htext _)
  · cases h
    rename_i m
    refine Text.isBlankText_coe_eq_false (c := '.') ?_ (by decide)
    cases m <;> simp [Symbol.qualified, toString]
  · obtain ⟨s, hs, rfl⟩ := Except.exists_of_map_eq_ok h
    obtain ⟨c, hc, hblank⟩ := exists_visible_nested hs
    exact Text.isBlankText_coe_eq_false hc hblank

end Value

namespace Document

/-- What stands for an identifier is missing, empty or blank. -/
def Unnamed (v : Value) : Prop := v.isEmpty = true ∨ ∃ t : Text, v = .text t ∧ t.isBlankText = true

def VoidEntry (v : Value) : Prop := isObject v = false ∨ Unnamed (field v "id")

/-- The keys of the four ends of a wire, in the order in which they are read. -/
def endKeys : List (List Text) :=
  [["fromNodeId", "from_node_id"], ["fromPinId", "from_pin_id"], ["toNodeId", "to_node_id"],
    ["toPinId", "to_pin_id"]]

/-- A wire that is skipped. All its ends are read before one is missed, so that they are legible. -/
def VoidWire (v : Value) : Prop :=
  isObject v = false ∨
    (∀ keys ∈ endKeys, (first v keys).Writable) ∧ ∃ keys ∈ endKeys, Unnamed (first v keys)

theorem idOf_text_strip (t : Text) : idOf (.text t) = .ok (Text.strip t) := by
  rw [idOf, textOf_text]
  rfl

theorem idOf_of_isEmpty {v : Value} (h : v.isEmpty = true) : idOf v = .ok "" := by
  rw [idOf, textOf, Value.plainOrEmpty, if_pos h]
  rfl

theorem idOf_eq_ok_empty_iff (v : Value) : idOf v = .ok "" ↔ Unnamed v := by
  constructor
  · intro h
    by_cases hempty : v.isEmpty = true
    · exact .inl hempty
    right
    by_cases htext : ∃ t, v = .text t
    · obtain ⟨t, rfl⟩ := htext
      rw [idOf_text_strip] at h
      exact ⟨t, rfl, Text.strip_eq_empty_iff.mp (Except.ok.inj h)⟩
    · rw [idOf, textOf, Value.plainOrEmpty, if_neg hempty] at h
      obtain ⟨t, ht, hstrip⟩ := Except.exists_of_map_eq_ok h
      have hblank := Value.isBlankText_plain (not_exists.mp htext) (Except.eq_ok_of_mapError ht)
      rw [Text.strip_eq_empty_iff.mp hstrip.symm] at hblank
      cases hblank
  · rintro (h | ⟨t, rfl, ht⟩)
    · exact idOf_of_isEmpty h
    · rw [idOf_text_strip, Text.strip_eq_empty_iff.mpr ht]

theorem exists_idOf_iff (v : Value) : (∃ t, idOf v = .ok t) ↔ v.Writable := by
  have h := judged_idOf v
  constructor
  · rintro ⟨t, ht⟩
    rw [ht] at h
    exact h.1
  · intro hv
    cases ht : idOf v with
    | ok t => exact ⟨t, rfl⟩
    | error r =>
      rw [ht] at h
      cases r with
      | fault f => exact absurd (hv f) h
      | _ => exact absurd trivial h

theorem pure_some_ne_none {β : Type} (b : β) :
    (pure (some b) : Except LoadError (Option β)) ≠ .ok none := by
  intro h
  cases h

theorem bind_ne_none {α β : Type} {e : Except LoadError α} {f : α → Except LoadError (Option β)}
    (h : ∀ a, f a ≠ .ok none) : e >>= f ≠ .ok none := by
  intro he
  obtain ⟨a, -, ha⟩ := Except.exists_of_bind_eq_ok he
  exact h a ha

/-- An entry is skipped for want of an identifier, or else it is read to its end. -/
theorem named_eq_none_iff {β : Type} {v : Value} {rest : Text → Except LoadError (Option β)}
    (h : ∀ id, rest id ≠ .ok none) :
    (if !isObject v then return none else do
      let id ← idOf (field v "id")
      if id = "" then return none else rest id) = .ok none ↔ VoidEntry v := by
  unfold VoidEntry
  cases isObject v with
  | false => exact iff_of_true rfl (.inl rfl)
  | true =>
    rw [← idOf_eq_ok_empty_iff]
    constructor
    · intro hnone
      obtain ⟨id, hid, hnone⟩ := Except.exists_of_bind_eq_ok hnone
      by_cases hempty : id = ""
      · exact .inr (hempty ▸ hid)
      · rw [if_neg hempty] at hnone
        exact absurd hnone (h id)
    · rintro (hobject | hid)
      · cases hobject
      · change (idOf (field v "id") >>= _) = _
        rw [hid]
        rfl

theorem readPin_eq_none_iff (nodeId : Text) (side : Direction) (v : Value) :
    readPin nodeId side v = .ok none ↔ VoidEntry v := by
  refine named_eq_none_iff fun id => ?_
  refine bind_ne_none fun _ => bind_ne_none fun _ => bind_ne_none fun _ => bind_ne_none fun _ => ?_
  exact pure_some_ne_none _

theorem readNode_eq_none_iff (v : Value) : readNode v = .ok none ↔ VoidEntry v := by
  refine named_eq_none_iff fun id => ?_
  refine bind_ne_none fun _ => bind_ne_none fun _ => bind_ne_none fun _ => bind_ne_none fun _ =>
    bind_ne_none fun _ => bind_ne_none fun _ => bind_ne_none fun _ => ?_
  exact pure_some_ne_none _

theorem unnamed_iff {v : Value} {t : Text} (h : idOf v = .ok t) : Unnamed v ↔ t = "" := by
  rw [← idOf_eq_ok_empty_iff, h, Except.ok.injEq]

theorem readWire_eq_none_iff (v : Value) (position : Nat) :
    readWire (v, position) = .ok none ↔ VoidWire v := by
  cases hobject : isObject v with
  | false =>
    refine iff_of_true ?_ (.inl hobject)
    simp only [readWire, hobject]
    rfl
  | true =>
    simp only [VoidWire, endKeys, List.forall_mem_cons, List.exists_mem_cons_iff,
      ← exists_idOf_iff, readWire, hobject, Bool.not_true, Bool.false_eq_true, if_false]
    constructor
    · intro h
      obtain ⟨fromNode, hfromNode, h⟩ := Except.exists_of_bind_eq_ok h
      obtain ⟨fromPin, hfromPin, h⟩ := Except.exists_of_bind_eq_ok h
      obtain ⟨toNode, htoNode, h⟩ := Except.exists_of_bind_eq_ok h
      obtain ⟨toPin, htoPin, h⟩ := Except.exists_of_bind_eq_ok h
      rw [unnamed_iff hfromNode, unnamed_iff hfromPin, unnamed_iff htoNode, unnamed_iff htoPin]
      split at h
      · rename_i hmissing
        refine .inr ⟨⟨⟨_, hfromNode⟩, ⟨_, hfromPin⟩, ⟨_, htoNode⟩, ⟨_, htoPin⟩,
          List.forall_mem_nil _⟩, ?_⟩
        simpa using hmissing
      · refine absurd h (bind_ne_none fun _ => bind_ne_none fun _ => ?_)
        exact pure_some_ne_none _
    · rintro (h | ⟨⟨⟨fromNode, hfromNode⟩, ⟨fromPin, hfromPin⟩, ⟨toNode, htoNode⟩,
        ⟨toPin, htoPin⟩, -⟩, hmissing⟩)
      · cases h
      rw [unnamed_iff hfromNode, unnamed_iff hfromPin, unnamed_iff htoNode, unnamed_iff htoPin]
        at hmissing
      simp only [hfromNode, hfromPin, htoNode, htoPin]
      exact if_pos (by simpa using hmissing)

end Document

end NodeScript
