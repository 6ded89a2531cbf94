import NodeScript.Proofs.FloatOrder
import NodeScript.Proofs.Numerals
import NodeScript.Proofs.Operands

/-!
Integers that become texts and are read again. The text of an integer is its numeral, and so is that
of a float below the bound that denotes an integer. A numeral is read as its integer, also between
blanks, so that an operand may go through texts on its way.
-/

namespace NodeScript

theorem Text.digit?_of_isDigit {c : Char} (h : c.isDigit) : digit? c = some (c.toNat - 0x30) := by
  have hrange : 0x30 ≤ c.toNat ∧ c.toNat ≤ 0x39 := by
    simpa [Char.isDigit, UInt32.le_iff_toNat_le] using h
  have hdigits : ∀ d < 10, digit? (Char.ofNat (0x30 + d)) = some d := by decide
  have hc := hdigits (c.toNat - 0x30) (by omega)
  rwa [Nat.add_sub_cancel' hrange.1, Char.ofNat_toNat] at hc

namespace Decimal

def digitsOf (n : Int) : List Nat := (natDigits n.natAbs).map (·.toNat - 0x30)

theorem digits_natDigits (n : Int) :
    (natDigits n.natAbs).map Text.digit? = (digitsOf n).map some := by
  rw [digitsOf, List.map_map]
  apply List.map_congr_left
  intro c hc
  exact Text.digit?_of_isDigit (Nat.isDigit_of_mem_toDigits (by decide) (by decide) hc)

theorem ofDigits_digitsOf (n : Int) : Nat.ofDigits 10 (digitsOf n).reverse = n.natAbs := by
  rw [← positional_eq_ofDigits, positional, digitsOf, List.foldl_map]
  have h := Nat.ofDigitChars_ten_toDigits (n := n.natAbs)
  rw [Nat.ofDigitChars_eq_foldl] at h
  exact h

theorem numeral_digitsOf (n : Int) : Numeral (digitsOf n) (numeral n).toList n := by
  have hdigits := digits_natDigits n
  have hvalue := ofDigits_digitsOf n
  rw [numeral, String.toList_ofList]
  split
  · rename_i hneg
    have h := Numeral.minus hdigits
    rwa [hvalue, Int.ofNat_natAbs_of_nonpos hneg.le, neg_neg] at h
  · rename_i hneg
    have h := Numeral.unsigned hdigits
    rwa [hvalue, Int.natAbs_of_nonneg (not_lt.mp hneg)] at h

/-- The power stays symbolic: for the limit it is too large to be evaluated. -/
theorem length_natDigits_le {m k : Nat} (hk : 0 < k) (h : m < Nat.pow 10 k) :
    (natDigits m).length ≤ k := (Nat.length_toDigits_le_iff (by decide) hk).mpr h

theorem length_digitsOf {n : Int} (h : Short n) :
    1 ≤ (digitsOf n).length ∧ (digitsOf n).length ≤ digitLimit := by
  unfold Short at h
  rw [digitsOf, List.length_map]
  exact ⟨List.length_pos_iff.mpr Nat.toDigits_ne_nil, length_natDigits_le (by decide) h⟩

end Decimal

namespace Text

theorem isBlankText_append {s t : Text} (hs : s.isBlankText) (ht : t.isBlankText) :
    (s ++ t).isBlankText := by
  rw [isBlankText_iff, toList_append]
  exact List.forall_mem_append.mpr ⟨isBlankText_iff.mp hs, isBlankText_iff.mp ht⟩

namespace Frames

variable {s t blank : Text}

theorem refl (t : Text) : t.Frames t := by
  refine ⟨"", "", rfl, rfl, ?_⟩
  rw [empty_append, append_empty]

theorem append_left (h : s.Frames t) (hblank : blank.isBlankText) : (blank ++ s).Frames t := by
  obtain ⟨left, right, hleft, hright, rfl⟩ := h
  refine ⟨blank ++ left, right, isBlankText_append hblank hleft, hright, ?_⟩
  rw [append_assoc, append_assoc, append_assoc]

theorem append_right (h : s.Frames t) (hblank : blank.isBlankText) : (s ++ blank).Frames t := by
  obtain ⟨left, right, hleft, hright, rfl⟩ := h
  refine ⟨left, right ++ blank, hleft, isBlankText_append hright hblank, ?_⟩
  rw [append_assoc, append_assoc]

end Frames

def withoutBlanks (t : Text) : Text := ofList (t.toList.filter fun p => !isBlank p.toChar)

theorem withoutBlanks_append (s t : Text) :
    withoutBlanks (s ++ t) = withoutBlanks s ++ withoutBlanks t := by
  apply toList_injective
  simp only [withoutBlanks, toList_append, toList_ofList, List.filter_append]

theorem withoutBlanks_of_isBlankText {t : Text} (h : t.isBlankText) : withoutBlanks t = "" := by
  rw [withoutBlanks, List.filter_eq_nil_iff.mpr]
  · rfl
  · intro p hp
    simp [isBlankText_iff.mp h p hp]

theorem Frames.withoutBlanks_eq {s t : Text} (h : s.Frames t) :
    withoutBlanks s = withoutBlanks t := by
  obtain ⟨left, right, hleft, hright, rfl⟩ := h
  rw [withoutBlanks_append, withoutBlanks_append, withoutBlanks_of_isBlankText hleft,
    withoutBlanks_of_isBlankText hright, empty_append, append_empty]

end Text

namespace Value

variable {n : Int} {t : Text}

theorem toNumber?_of_frames (h : Decimal.Short n) (ht : t.Frames (toString n : String)) :
    (text t).toNumber? = some (.int n) := by
  have hn := Decimal.numeral_digitsOf n
  -- There are no blanks in a numeral, so that nothing is lost when its text is stripped.
  have hchars : (Text.strip (Decimal.numeral n)).chars = (Decimal.numeral n).toList := by
    have hstrip := hn.strip_eq
    have hself := Text.chars_ofList (Decimal.numeral n).toList
    rw [String.ofList_toList] at hstrip hself
    rw [hstrip, hself]
  rw [toNumber?_text_of_frames ht, ← Decimal.numeral_eq_toString, toNumber?_text_eq_int_iff, hchars]
  exact ⟨Decimal.digitsOf n, hn, Decimal.length_digitsOf h⟩

theorem display_int (h : Decimal.Short n) : (int n).display = .ok (toString n : String) := by
  change (int n).plain = _
  exact plain_int h

/-- An integer and a text that shows it are alike in every view in which the text looks like the
numeral. -/
theorem alike_of_frames (h : Decimal.Short n) (ht : t.Frames (toString n : String))
    {view : Text → Text} (hview : view t = view (toString n : String)) :
    (int n).Alike view (text t) := by
  constructor
  · rw [toNumber?_of_frames h ht]
    rfl
  · change (int n).display.map view = .ok (view t)
    rw [display_int h, hview]
    rfl

theorem display_float {x : Float} (hx : x.isFinite) (hn : Binary64.toRat x = n)
    (hlt : |n| < 10 ^ 21) : (float x).display = .ok (toString n : String) := by
  change Except.ok (floatDisplay x : Text) = _
  rw [floatDisplay_of_integral hx hn hlt, Decimal.numeral_eq_toString]

end Value

theorem natAbs_lt_pow {n : Int} {k l : Nat} (hk : k ≤ l) (h : |n| < 10 ^ k) :
    n.natAbs < Nat.pow 10 l := by
  have hlt : n.natAbs < 10 ^ k := by
    zify
    exact h
  exact hlt.trans_le (Nat.pow_le_pow_right (by decide) hk)

theorem Run.givenStep?_of_ne_null {v : Value} (h : v ≠ .null) :
    givenStep? v = v.toInteger?.filter (· ≠ 0) := by
  cases v with
  | null => exact absurd rfl h
  | _ => rfl

open Evaluation Evaluation.Meaning

theorem Operation.displayed_of_value {i : Inputs} {label t : Text} {v : Value}
    (hv : i.value label = v) (ht : v.display = .ok t) : displayed i label = .ok t := by
  rw [displayed, hv, ht]
  rfl

inductive Graph.Converts (g : Graph) (k : NodeKind) (a : Origin) : Origin → Prop
  | intro {node : Node} {pin : Pin} (kind : node.kind = k) (data : pin.isExec = false)
    (hsources : sources g node = [(("Value" : Text), a)]) : Converts g k a (.output node pin)

section

variable {scene : Scene} {hg : scene.graph.Acyclic}

theorem originValue_toString {a source : Origin} {v : Value} {t : Text}
    (h : scene.graph.Converts .toString a source) (ha : originValue scene hg a = .ok v)
    (ht : v.display = .ok t) : originValue scene hg source = .ok (.text t) := by
  obtain ⟨kind, data, hsources⟩ := h
  rename_i node pin
  have hc : collect Prod.fst (fun source => originValue scene hg source.2)
      (sources scene.graph node) (ownInputs node) = .ok ((ownInputs node).insert "Value" v) := by
    rw [hsources]
    simp [collect, ha]
  rw [originValue_of_operation data (by rw [kind]; rfl) hc]
  apply result_plain
  rw [Operation.displayed_of_value (Inputs.value_insert_self _ _ _) ht]
  rfl

theorem originValue_concatenate {a b source : Origin} {s t : Text}
    (h : scene.graph.Applies .concatString a b source)
    (ha : originValue scene hg a = .ok (.text s)) (hb : originValue scene hg b = .ok (.text t)) :
    originValue scene hg source = .ok (.text (s ++ t)) := by
  obtain ⟨-, kind, data, hsources⟩ := h
  rename_i node pin
  have hc : collect Prod.fst (fun source => originValue scene hg source.2)
      (sources scene.graph node) (ownInputs node) =
      .ok (((ownInputs node).insert "A" (.text s)).insert "B" (.text t)) := by
    rw [hsources]
    simp [collect, ha, hb]
  have hs : Inputs.value (((ownInputs node).insert "A" (.text s)).insert "B" (.text t)) "A" =
      .text s := by
    rw [Inputs.value_insert_of_ne _ (by decide), Inputs.value_insert_self]
  rw [originValue_of_operation data (by rw [kind]; rfl) hc]
  apply result_plain
  rw [Operation.displayed_of_value hs rfl,
    Operation.displayed_of_value (Inputs.value_insert_self _ _ _) rfl]
  rfl

/-- The integer comes from the origin as a text: it has been turned into text, and then blanks have
been put before and after it any number of times. -/
inductive Retold (scene : Scene) (hg : scene.graph.Acyclic) (n : Int) : Origin → Prop
  | shown {a source : Origin} (h : scene.graph.Converts .toString a source)
    (ha : originValue scene hg a = .ok (.int n)) : Retold scene hg n source
  | indented {a b source : Origin} {blank : Text}
    (h : scene.graph.Applies .concatString a b source) (hblank : blank.isBlankText)
    (ha : originValue scene hg a = .ok (.text blank)) (hb : Retold scene hg n b) :
    Retold scene hg n source
  | padded {a b source : Origin} {blank : Text}
    (h : scene.graph.Applies .concatString a b source) (hblank : blank.isBlankText)
    (ha : Retold scene hg n a) (hb : originValue scene hg b = .ok (.text blank)) :
    Retold scene hg n source

theorem Retold.exists_frames {n : Int} {source : Origin} (h : Retold scene hg n source)
    (hn : Decimal.Short n) :
    ∃ t : Text, t.Frames (toString n : String) ∧ originValue scene hg source = .ok (.text t) := by
  -- Along the way the text goes on to frame the numeral, and only the frame grows.
  induction h with
  | shown h ha => exact ⟨_, .refl _, originValue_toString h ha (Value.display_int hn)⟩
  | indented h hblank ha _ ih =>
    obtain ⟨t, ht, hb⟩ := ih
    exact ⟨_, ht.append_left hblank, originValue_concatenate h ha hb⟩
  | padded h hblank _ hb ih =>
    obtain ⟨t, ht, ha⟩ := ih
    exact ⟨_, ht.append_right hblank, originValue_concatenate h ha hb⟩

end

/-- The second origin supplies what the first one does, under the same label, but an integer may
have become a text on its way. -/
def Retells (scene scene' : Scene) (hg : scene.graph.Acyclic) (hg' : scene'.graph.Acyclic)
    (a b : Text × Origin) : Prop :=
  a.1 = b.1 ∧ (originValue scene hg a.2 = originValue scene' hg' b.2 ∨
    ∃ n, Decimal.Short n ∧ originValue scene hg a.2 = .ok (.int n) ∧ Retold scene' hg' n b.2)

/-- No operation tells these two integer operands apart, whatever its other operands are, except
for what a warning shows outside of the view. -/
def Operation.Interchangeable (view : Text → Text) (v w : Value) : Prop :=
  ∀ {k : NodeKind} {operation label}, k.operation? = some operation →
    ⟨label, .integer⟩ ∈ k.template.inputs → ∀ (i : Inputs) g,
      Agrees view (operation (i.insert label v) g) (operation (i.insert label w) g)

theorem Operation.interchangeable_of_alike {view : Text → Text}
    (hview : ∀ s t, view (s ++ t) = view s ++ view t) {v w : Value} (h : v.Alike view w) :
    Interchangeable view v w := by
  intro k operation label ho hlabel i g
  have hk : k.takesIntegers := List.any_eq_true.mpr ⟨_, hlabel, by simp⟩
  exact agrees_of_takesIntegers hview ((Inputs.Alike.refl view i).insert label h) hk ho g

theorem Retells.alike {scene scene' : Scene} {hg : scene.graph.Acyclic}
    {hg' : scene'.graph.Acyclic} {a b : Text × Origin} (h : Retells scene scene' hg hg' a b) :
    a.1 = b.1 ∧ Run.Answers (Value.Alike Text.withoutBlanks) (originValue scene hg a.2)
      (originValue scene' hg' b.2) := by
  obtain ⟨hlabel, heq | ⟨n, hn, ha, hb⟩⟩ := h
  · refine ⟨hlabel, ?_⟩
    rw [heq]
    cases originValue scene' hg' b.2 with
    | ok v => exact .ok (.refl _ v)
    | error fault => exact .error fault
  · obtain ⟨t, ht, hb⟩ := hb.exists_frames hn
    refine ⟨hlabel, ?_⟩
    rw [ha, hb]
    exact .ok (Value.alike_of_frames hn ht ht.withoutBlanks_eq)

/-- An integer that can be written shows as its numeral and is read back from it, and so does a
float below the bound that denotes an integer. As an operand, a numeral cannot be told from its
integer, and with blanks around it only the blanks in a warning tell; counting loops read bounds and
steps off it. Hence nodes that take integers have the same value if some of the integers go through
texts first. -/
theorem Value.integer_survives_text :
    (∀ n, Decimal.Short n → (int n).display = .ok (toString n : String) ∧
      (text (toString n : String)).toNumber? = some (.int n) ∧
      Operation.Interchangeable id (int n) (text (toString n : String))) ∧
    (∀ (x : Float) (n : Int), x.isFinite → Binary64.toRat x = n → |n| < 10 ^ 21 →
      (float x).display = .ok (toString n : String) ∧
      (text (toString n : String)).toNumber? = some (.int n)) ∧
    (∀ n t, Decimal.Short n → t.Frames (toString n : String) →
      (text t).toInteger? = some n ∧ Run.givenStep? (text t) = Run.givenStep? (int n) ∧
      Operation.Interchangeable Text.withoutBlanks (int n) (text t)) ∧
    ∀ {scene scene' : Scene} (hg : scene.graph.Acyclic) (hg' : scene'.graph.Acyclic)
      (node node' : Node), node'.kind = node.kind → node'.properties = node.properties →
      node.kind.takesIntegers →
      List.Forall₂ (Retells scene scene' hg hg') (sources scene.graph node)
        (sources scene'.graph node') →
      operationValue scene hg node = operationValue scene' hg' node' := by
  have hback {n : Int} (hn : Decimal.Short n) :
      (text (toString n : String)).toNumber? = some (.int n) :=
    toNumber?_of_frames hn (.refl _)
  refine ⟨fun n hn => ?_, fun x n hx hn hlt => ?_, fun n t hn ht => ?_, ?_⟩
  · have halike : (int n).Alike id (text (toString n : String)) :=
      alike_of_frames hn (.refl _) rfl
    exact ⟨display_int hn, hback hn, Operation.interchangeable_of_alike (fun _ _ => rfl) halike⟩
  · -- The bound of integral floats is far below the limit of digits.
    have hshort : Decimal.Short n := natAbs_lt_pow (by decide) hlt
    exact ⟨display_float hx hn hlt, hback hshort⟩
  · have hinteger : (text t).toInteger? = some n := by
      rw [toInteger?, toNumber?_of_frames hn ht]
      rfl
    have hstep : Run.givenStep? (text t) = Run.givenStep? (int n) := by
      rw [Run.givenStep?_of_ne_null (by simp), hinteger]
      rfl
    have halike : (int n).Alike Text.withoutBlanks (text t) :=
      alike_of_frames hn ht ht.withoutBlanks_eq
    exact ⟨hinteger, hstep, Operation.interchangeable_of_alike Text.withoutBlanks_append halike⟩
  · intro scene scene' hg hg' node node' hkind hproperties hk h
    exact operationValue_eq_of_alike Text.withoutBlanks_append hkind hproperties hk
      (h.imp fun _ _ h => h.alike)

namespace Detour

def literal (id : Text) (kind : NodeKind) (v : Value) : Node :=
  { id, kind, outputs := [⟨"value", id, "Value", .any, .output⟩], properties := ⟨[("value", v)]⟩ }

def operation (id : Text) (kind : NodeKind) (labels : List Text) : Node :=
  { id, kind
    inputs := labels.map fun label => ⟨label, id, label, .any, .input⟩
    outputs := [⟨"result", id, "Result", .any, .output⟩] }

def number : Node := literal "number" .integerLiteral (.int (-12))

def blank : Node := literal "blank" .stringLiteral (.text " \t")

def shown : Node := operation "shown" .toString ["Value"]

def indented : Node := operation "indented" .concatString ["A", "B"]

def direct : Node := operation "direct" .addInteger ["A", "B"]

def indirect : Node := operation "indirect" .addInteger ["A", "B"]

def graph : Graph :=
  .ofLists [number, blank, shown, indented, direct, indirect]
    [⟨"1", "number", "value", "direct", "A", .any⟩, ⟨"2", "number", "value", "direct", "B", .any⟩,
      ⟨"3", "number", "value", "shown", "Value", .any⟩,
      ⟨"4", "blank", "value", "indented", "A", .any⟩,
      ⟨"5", "shown", "result", "indented", "B", .any⟩,
      ⟨"6", "indented", "result", "indirect", "A", .any⟩,
      ⟨"7", "number", "value", "indirect", "B", .any⟩]

def scene : Scene := { graph, bindings := {}, loops := {} }

def rank (id : Text) : Nat :=
  if id = "number" ∨ id = "blank" then 0 else if id = "shown" then 1 else if id = "indented" then 2
  else 3

theorem acyclic_graph : scene.graph.Acyclic := Graph.acyclic_of_rank rank (by decide)

def outputOf (node : Node) : Origin :=
  .output node (node.outputs.headD ⟨"", node.id, "", .exec, .output⟩)

theorem sources_direct :
    sources scene.graph direct =
      [(("A" : Text), outputOf number), (("B" : Text), outputOf number)] := by
  simp only [sources, scene, graph, origin_ofLists]
  rfl

theorem sources_indirect :
    sources scene.graph indirect =
      [(("A" : Text), outputOf indented), (("B" : Text), outputOf number)] := by
  simp only [sources, scene, graph, origin_ofLists]
  rfl

theorem originValue_number :
    originValue scene acyclic_graph (outputOf number) = .ok (.int (-12)) := by
  have hk : number.kind.operation? = some Operation.stored := rfl
  exact originValue_of_operation rfl hk rfl

theorem originValue_blank :
    originValue scene acyclic_graph (outputOf blank) = .ok (.text " \t") := by
  have hk : blank.kind.operation? = some Operation.stored := rfl
  exact originValue_of_operation rfl hk rfl

theorem retold_indented : Retold scene acyclic_graph (-12) (outputOf indented) := by
  have hshown : scene.graph.Converts .toString (outputOf number) (outputOf shown) := by
    refine .intro rfl rfl ?_
    simp only [sources, scene, graph, origin_ofLists]
    rfl
  have hindented :
      scene.graph.Applies .concatString (outputOf blank) (outputOf shown) (outputOf indented) := by
    have hnodes : scene.graph.nodes = [number, blank, shown, indented, direct, indirect] :=
      Graph.nodes_ofLists _ (by decide)
    refine .intro (by rw [hnodes]; simp) rfl rfl ?_
    simp only [sources, scene, graph, origin_ofLists]
    rfl
  exact .indented hindented (by decide) originValue_blank (.shown hshown originValue_number)

theorem integer_survives_text_sum :
    operationValue scene acyclic_graph direct = .ok (.int (-24)) ∧
      operationValue scene acyclic_graph indirect = .ok (.int (-24)) := by
  have hshort : Decimal.Short (-12) := by
    unfold Decimal.Short
    decide +kernel
  have hretells : List.Forall₂ (Retells scene scene acyclic_graph acyclic_graph)
      (sources scene.graph direct) (sources scene.graph indirect) := by
    rw [sources_direct, sources_indirect]
    exact .cons ⟨rfl, .inr ⟨-12, hshort, originValue_number, retold_indented⟩⟩
      (.cons ⟨rfl, .inl rfl⟩ .nil)
  have hdirect : operationValue scene acyclic_graph direct = .ok (.int (-24)) := by
    have hk : direct.kind.operation? = some (Operation.integers (· + ·)) := rfl
    rw [operationValue_eq_sources hk, sources_direct]
    simp only [collect, originValue_number]
    rfl
  have hsame := Value.integer_survives_text.2.2.2 acyclic_graph acyclic_graph direct indirect
    rfl rfl rfl hretells
  exact ⟨hdirect, hsame ▸ hdirect⟩

end Detour

end NodeScript
