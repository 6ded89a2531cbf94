import NodeScript.Variables

/-!
Which values can be written, as a text or as a literal. An integer with too many digits keeps a
value from that, wherever it stands in it, and so does a level too many.
-/

namespace NodeScript

/-- The integer occurs in the value. -/
inductive Value.Holds (n : Int) : Value → Prop
  | int : Holds n (.int n)
  | item {v : Value} {items : List Value} (hv : v ∈ items) (h : Holds n v) : Holds n (.list items)
  | field {key : Text} {v : Value} {entries : List (Text × Value)} (hv : (key, v) ∈ entries)
    (h : Holds n v) : Holds n (.record entries)

/-- The integer is short enough to be written. -/
def Decimal.Short (n : Int) : Prop := n.natAbs < Nat.pow 10 digitLimit

/-- What distinguishes the two ways to write values: the levels that are counted for a value without
parts, and the fault of a value with too many levels. -/
structure Value.Format where
  leaf : Nat
  deep : Fault

def Value.Format.text : Format := ⟨1, .textTooDeep⟩

def Value.Format.literal : Format := ⟨0, .literalTooDeep⟩

/-- Nothing in the value leads to this fault when it is written with so many levels. -/
structure Value.Avoids (format : Format) (levels : Nat) (v : Value) (f : Fault) : Prop where
  short : f = .integerTooLong → ∀ n, v.Holds n → Decimal.Short n
  shallow : f = format.deep → v.depth format.leaf ≤ levels

theorem Value.not_avoids_iff {format : Format} {levels : Nat} {v : Value} {f : Fault} :
    ¬v.Avoids format levels f ↔
      (f = .integerTooLong ∧ ∃ n, v.Holds n ∧ ¬Decimal.Short n) ∨
        f = format.deep ∧ levels < v.depth format.leaf := by
  refine ⟨fun h => ?_, ?_⟩
  · refine Classical.byContradiction fun hn => h ⟨fun hf n hheld => ?_, fun hf => ?_⟩
    · exact Classical.byContradiction fun hlong => hn (.inl ⟨hf, n, hheld, hlong⟩)
    · exact Nat.le_of_not_lt fun hdeep => hn (.inr ⟨hf, hdeep⟩)
  · rintro (⟨hf, n, hheld, hlong⟩ | ⟨hf, hdeep⟩) h
    · exact hlong (h.short hf n hheld)
    · exact Nat.not_lt.mpr (h.shallow hf) hdeep

/-- Something is written if every fault is avoided, and otherwise ends in one that is not. -/
structure WrittenIf {α : Type} (avoids : Fault → Prop) (e : Except Fault α) : Prop where
  ok : ∀ x, e = .ok x → ∀ f, avoids f
  error : ∀ f, e = .error f → ¬avoids f

namespace WrittenIf

variable {α β : Type} {p q : Fault → Prop} {e : Except Fault α}

theorem of_ok (hp : ∀ f, p f) (x : α) : WrittenIf p (.ok x : Except Fault α) :=
  ⟨fun _ _ => hp, nofun⟩

theorem of_exists (hp : ∀ f, p f) (h : ∃ x, e = .ok x) : WrittenIf p e := by
  obtain ⟨x, rfl⟩ := h
  exact .of_ok hp x

theorem of_error {f : Fault} (h : ¬p f) : WrittenIf p (.error f : Except Fault α) := by
  refine ⟨nofun, fun g hg => ?_⟩
  cases hg
  exact h

theorem congr (h : WrittenIf p e) (hpq : ∀ f, p f ↔ q f) : WrittenIf q e :=
  ⟨fun x hx f => (hpq f).mp (h.ok x hx f), fun f hf => mt (hpq f).mpr (h.error f hf)⟩

theorem ok_iff (h : WrittenIf p e) : (∃ x, e = .ok x) ↔ ∀ f, p f := by
  refine ⟨fun ⟨x, hx⟩ => h.ok x hx, fun hp => ?_⟩
  cases e with
  | ok x => exact ⟨x, rfl⟩
  | error f => exact absurd (hp f) (h.error f rfl)

theorem bind {g : α → Except Fault β} (h : WrittenIf p e) (hg : ∀ x, WrittenIf q (g x)) :
    WrittenIf (fun f => p f ∧ q f) (e >>= g) := by
  cases e with
  | ok x => exact (hg x).congr fun f => (and_iff_right (h.ok x rfl f)).symm
  | error f => exact .of_error fun hpq => h.error f rfl hpq.1

theorem map (h : WrittenIf p e) (g : α → β) : WrittenIf p (e.map g) := by
  cases e with
  | ok x => exact .of_ok (h.ok x rfl) (g x)
  | error f => exact .of_error (h.error f rfl)

end WrittenIf

namespace Value

theorem writtenIf_integerText (n : Int) :
    WrittenIf (fun f => f = .integerTooLong → Decimal.Short n) (integerText n) := by
  unfold integerText Decimal.numeral? Decimal.Short
  by_cases h : n.natAbs < Nat.pow 10 Decimal.digitLimit
  · rw [if_pos h]
    exact .of_ok (fun _ _ => h) _
  · rw [if_neg h]
    exact .of_error fun hs => h (hs rfl)

section

variable {leaf levels : Nat}

theorem depthOfItems_le_iff {items : List Value} :
    depthOfItems leaf items ≤ levels ↔ ∀ v ∈ items, v.depth leaf ≤ levels := by
  induction items with
  | nil => simp [depthOfItems]
  | cons v items ih => rw [depthOfItems, Nat.max_le, ih, List.forall_mem_cons]

theorem depthOfEntries_le_iff {entries : List (Text × Value)} :
    depthOfEntries leaf entries ≤ levels ↔ ∀ e ∈ entries, e.2.depth leaf ≤ levels := by
  induction entries with
  | nil => simp [depthOfEntries]
  | cons e entries ih => rw [depthOfEntries, Nat.max_le, ih, List.forall_mem_cons]

end

def nest : Nat → Value
  | 0 => .list []
  | levels + 1 => .list [nest levels]

/-- A value without parts, and none of those that can be too long. -/
def isScalar : Value → Bool
  | int _ | list _ | record _ => false
  | _ => true

namespace Avoids

variable {format : Format} {levels : Nat} {f : Fault}

theorem of_isScalar {v : Value} (hv : v.isScalar) (hl : format.leaf ≤ levels) :
    v.Avoids format levels f := by
  refine ⟨fun _ n hn => ?_, fun _ => ?_⟩
  · cases hn <;> cases hv
  · cases v with
    | int n | list items | record entries => cases hv
    | _ => exact hl

theorem int_iff {n : Int} (hl : format.leaf ≤ levels) :
    Avoids format levels (.int n) f ↔ (f = .integerTooLong → Decimal.Short n) := by
  refine ⟨fun h hf => h.short hf n .int, fun h => ⟨fun hf m hm => ?_, fun _ => hl⟩⟩
  cases hm
  exact h hf

theorem list_iff {items : List Value} :
    Avoids format (levels + 1) (.list items) f ↔ ∀ v ∈ items, v.Avoids format levels f := by
  constructor
  · refine fun h v hv => ⟨fun hf n hn => h.short hf n (.item hv hn), fun hf => ?_⟩
    exact depthOfItems_le_iff.mp (Nat.le_of_succ_le_succ (h.shallow hf)) v hv
  · refine fun h => ⟨fun hf n hn => ?_, fun hf => Nat.succ_le_succ ?_⟩
    · cases hn with
      | item hv hn => exact (h _ hv).short hf n hn
    · exact depthOfItems_le_iff.mpr fun v hv => (h v hv).shallow hf

theorem record_iff {entries : List (Text × Value)} :
    Avoids format (levels + 1) (.record entries) f ↔ ∀ e ∈ entries, e.2.Avoids format levels f := by
  constructor
  · refine fun h e he => ⟨fun hf n hn => h.short hf n (.field he hn), fun hf => ?_⟩
    exact depthOfEntries_le_iff.mp (Nat.le_of_succ_le_succ (h.shallow hf)) e he
  · refine fun h => ⟨fun hf n hn => ?_, fun hf => Nat.succ_le_succ ?_⟩
    · cases hn with
      | field he hn => exact (h _ he).short hf n hn
    · exact depthOfEntries_le_iff.mpr fun e he => (h e he).shallow hf

end Avoids

section

variable {α β γ : Type} {format : Format} {text : Nat → Value → Except Fault α}
  {listText : Nat → List Value → Except Fault β}
  {recordText : Nat → List (Text × Value) → Except Fault γ}

/-- A way to write values is compositional if a list or a record is written from its parts, with one
level less, and nothing fails to be written but integers and what has no level left. -/
structure Compositional (format : Format) (text : Nat → Value → Except Fault α)
    (listText : Nat → List Value → Except Fault β)
    (recordText : Nat → List (Text × Value) → Except Fault γ) : Prop where
  leaf_le : format.leaf ≤ 1
  spent : ∀ {v}, 0 < v.depth format.leaf → text 0 v = .error format.deep
  scalar : ∀ {levels v}, format.leaf ≤ levels → v.isScalar → ∃ t, text levels v = .ok t
  int : ∀ {levels} n, format.leaf ≤ levels →
    WrittenIf (fun f => f = .integerTooLong → Decimal.Short n) (text levels (.int n))
  list : ∀ {p levels items}, WrittenIf p (listText levels items) →
    WrittenIf p (text (levels + 1) (.list items))
  record : ∀ {p levels entries}, WrittenIf p (recordText levels entries) →
    WrittenIf p (text (levels + 1) (.record entries))
  nil : ∀ levels, ∃ t, listText levels [] = .ok t
  cons : ∀ {p q levels v items}, WrittenIf p (text levels v) → WrittenIf q (listText levels items) →
    WrittenIf (fun f => p f ∧ q f) (listText levels (v :: items))
  noEntries : ∀ levels, ∃ t, recordText levels [] = .ok t
  entry : ∀ {p q levels key v entries}, WrittenIf p (text levels v) →
    WrittenIf q (recordText levels entries) →
    WrittenIf (fun f => p f ∧ q f) (recordText levels ((key, v) :: entries))

namespace Compositional

variable (h : Compositional format text listText recordText)

include h

theorem writtenIf_spent {v : Value} (hv : 0 < v.depth format.leaf) :
    WrittenIf (v.Avoids format 0) (text 0 v) := by
  rw [h.spent hv]
  exact .of_error fun hn => Nat.not_lt.mpr (hn.shallow rfl) hv

/-- Either there are levels enough for a value without parts, or there is none at all. -/
theorem writtenIf_leaf {v : Value} (hv : v.depth format.leaf = format.leaf) {levels : Nat}
    (hl : format.leaf ≤ levels → WrittenIf (v.Avoids format levels) (text levels v)) :
    WrittenIf (v.Avoids format levels) (text levels v) := by
  by_cases hle : format.leaf ≤ levels
  · exact hl hle
  · have hleaf := h.leaf_le
    obtain rfl : levels = 0 := by omega
    exact h.writtenIf_spent (by omega)

theorem writtenIf_scalar {v : Value} (hs : v.isScalar) (hv : v.depth format.leaf = format.leaf)
    (levels : Nat) : WrittenIf (v.Avoids format levels) (text levels v) :=
  h.writtenIf_leaf hv fun hle => .of_exists (fun _ => .of_isScalar hs hle) (h.scalar hle hs)

end Compositional

mutual

theorem Compositional.writtenIf (h : Compositional format text listText recordText) (levels : Nat)
    (v : Value) : WrittenIf (v.Avoids format levels) (text levels v) := by
  cases v with
  | null | bool b | float x | text s | symbol s => exact h.writtenIf_scalar rfl rfl levels
  | int n =>
    exact h.writtenIf_leaf rfl fun hle => (h.int n hle).congr fun f => (Avoids.int_iff hle).symm
  | list items =>
    cases levels with
    | zero => exact h.writtenIf_spent (Nat.succ_pos _)
    | succ levels =>
      exact (h.list (h.writtenIf_list levels items)).congr fun f => Avoids.list_iff.symm
  | record entries =>
    cases levels with
    | zero => exact h.writtenIf_spent (Nat.succ_pos _)
    | succ levels =>
      exact (h.record (h.writtenIf_record levels entries)).congr fun f => Avoids.record_iff.symm

theorem Compositional.writtenIf_list (h : Compositional format text listText recordText)
    (levels : Nat) (items : List Value) :
    WrittenIf (fun f => ∀ v ∈ items, v.Avoids format levels f) (listText levels items) := by
  cases items with
  | nil => exact .of_exists (fun _ => nofun) (h.nil levels)
  | cons v items =>
    exact (h.cons (h.writtenIf levels v) (h.writtenIf_list levels items)).congr fun f => by
      rw [List.forall_mem_cons]

theorem Compositional.writtenIf_record (h : Compositional format text listText recordText)
    (levels : Nat) (entries : List (Text × Value)) :
    WrittenIf (fun f => ∀ e ∈ entries, e.2.Avoids format levels f) (recordText levels entries) := by
  cases entries with
  | nil => exact .of_exists (fun _ => nofun) (h.noEntries levels)
  | cons e entries =>
    obtain ⟨key, v⟩ := e
    exact (h.entry (h.writtenIf levels v) (h.writtenIf_record levels entries)).congr fun f => by
      rw [List.forall_mem_cons]

end

end

theorem compositional_nested : Compositional .text nested nestedItems nestedEntries where
  leaf_le := Nat.le_refl 1
  spent _ := by
    rw [nested]
    rfl
  scalar {levels v} hl h := by
    cases levels with
    | zero => exact absurd hl (Nat.not_succ_le_zero 0)
    | succ levels =>
      cases v with
      | int n | list items | record entries => cases h
      | _ => exact ⟨_, by rw [nested]⟩
  int {levels} n hl := by
    cases levels with
    | zero => exact absurd hl (Nat.not_succ_le_zero 0)
    | succ levels =>
      rw [nested]
      exact writtenIf_integerText n
  list h := by
    rw [nested]
    exact h.map _
  record h := by
    rw [nested]
    exact h.map _
  nil _ := ⟨_, rfl⟩
  cons hv hs := hv.bind fun t => hs.map (t :: ·)
  noEntries _ := ⟨_, rfl⟩
  entry {_ _ _ key _ _} hv hs := hv.bind fun t => hs.map (s!"{Text.quote key}: {t}" :: ·)

/-- The value has a text. -/
def Writable (v : Value) : Prop := ∀ f, v.Avoids .text depthLimit f

theorem one_le_depthLimit : 1 ≤ depthLimit := by decide

theorem writable_of_isScalar {v : Value} (h : v.isScalar) : v.Writable :=
  fun _ => .of_isScalar h one_le_depthLimit

theorem writable_of_isEmpty {v : Value} (h : v.isEmpty) : v.Writable := by
  cases v with
  | int n =>
    have h0 : n = 0 := by simpa [isEmpty] using h
    subst h0
    refine fun f => (Avoids.int_iff one_le_depthLimit).mpr fun _ => ?_
    unfold Decimal.Short
    generalize Decimal.digitLimit = limit
    exact Nat.pow_pos (by decide)
  | list items =>
    obtain rfl := List.isEmpty_iff.mp h
    exact fun f => Avoids.list_iff.mpr nofun
  | record entries =>
    obtain rfl := List.isEmpty_iff.mp h
    exact fun f => Avoids.record_iff.mpr nofun
  | _ => exact writable_of_isScalar rfl

section

variable (v : Value)

theorem writtenIf_plain : WrittenIf (v.Avoids .text depthLimit) v.plain := by
  have hnested (w : Value) : WrittenIf (w.Avoids .text depthLimit)
      ((nested depthLimit w).map fun (t : String) => (t : Text)) :=
    (compositional_nested.writtenIf depthLimit w).map _
  cases v with
  | text s | symbol s => exact .of_ok (writable_of_isScalar rfl) _
  | _ => exact hnested _

theorem writtenIf_plainOrEmpty : WrittenIf (v.Avoids .text depthLimit) v.plainOrEmpty := by
  unfold plainOrEmpty
  by_cases h : v.isEmpty
  · rw [if_pos h]
    exact .of_ok (writable_of_isEmpty h) _
  · rw [if_neg h]
    exact v.writtenIf_plain

theorem writtenIf_display : WrittenIf (v.Avoids .text depthLimit) v.display := by
  cases v with
  | null | bool b | float x | text s | symbol s => exact .of_ok (writable_of_isScalar rfl) _
  | int n => exact writtenIf_plain (.int n)
  | list items => exact writtenIf_plain (.list items)
  | record entries => exact writtenIf_plain (.record entries)

theorem writtenIf_describe : WrittenIf (v.Avoids .text depthLimit) v.describe := by
  cases v with
  | null | symbol s => exact .of_ok (writable_of_isScalar rfl) _
  | _ => exact writtenIf_display _

end

theorem compositional_innerLiteral :
    Compositional .literal innerLiteral innerLiterals entryLiterals where
  leaf_le := Nat.zero_le 1
  spent {v} h := by
    cases v with
    | list items => rfl
    | record entries => rfl
    | _ => exact absurd h (Nat.lt_irrefl 0)
  scalar {_ v} _ h := by
    cases v with
    | int n | list items | record entries => cases h
    | _ => exact ⟨_, by rw [innerLiteral]⟩
  int n _ := by
    rw [innerLiteral]
    exact (writtenIf_integerText n).map _
  list h := by
    rw [innerLiteral]
    exact h.map _
  record h := by
    rw [innerLiteral]
    exact h.map _
  nil _ := ⟨_, rfl⟩
  cons hv hs := hv.bind fun t => hs.map (t :: ·)
  noEntries _ := ⟨_, rfl⟩
  entry {_ _ _ key _ _} hv hs := hv.bind fun t => hs.map ((Text.literal key ++ ": " ++ t) :: ·)

theorem writtenIf_literal (v : Value) :
    WrittenIf (v.Avoids .literal depthLimit) v.literal := by
  cases v with
  | float x => exact .of_ok (fun f => .of_isScalar rfl (Nat.zero_le _)) _
  | _ => exact compositional_innerLiteral.writtenIf depthLimit _

end Value

namespace Variables

def Avoids (vs : Variables) (f : Fault) : Prop :=
  ∀ e ∈ vs.entries, e.2.Avoids .literal Value.depthLimit f

theorem writtenIf_lines (es : List (Text × Value)) :
    WrittenIf (fun f => ∀ e ∈ es, e.2.Avoids .literal Value.depthLimit f) (lines es) := by
  induction es with
  | nil => exact .of_ok (fun _ => nofun) _
  | cons e es ih =>
    obtain ⟨name, v⟩ := e
    have hline : WrittenIf (v.Avoids .literal Value.depthLimit) (line name v) :=
      (v.writtenIf_literal).map fun shown => "  " ++ name ++ ": " ++ shown
    exact (hline.bind fun l => ih.map (l :: ·)).congr fun f => by rw [List.forall_mem_cons]

theorem writtenIf_listing (vs : Variables) : WrittenIf vs.Avoids vs.listing := by
  obtain ⟨es⟩ := vs
  cases es with
  | nil => exact .of_ok (fun _ => nofun) _
  | cons e es => exact writtenIf_lines (e :: es)

end Variables

end NodeScript
