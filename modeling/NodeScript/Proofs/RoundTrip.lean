import Mathlib.Data.List.TakeWhile
import NodeScript.Graph.Document
import NodeScript.Proofs.Building

/-!
Graphs and their documents. Reading brings every field into a form that writing and reading again
leave as it is, and so does building by hand where identifiers do not begin with a blank. Graphs
whose fields have this form are called storable.
-/

namespace NodeScript

/-- The text stays as it is where an identifier is read. -/
structure Text.IsId (t : Text) : Prop where
  strip : Text.strip t = t
  ne_empty : t ≠ ""

structure Pin.Storable (p : Pin) : Prop where
  id : p.id.IsId
  nodeId : p.nodeId ≠ ""

structure Node.Storable (n : Node) : Prop where
  id : n.id.IsId
  inputs : ∀ p ∈ n.inputs, p.Storable
  outputs : ∀ p ∈ n.outputs, p.Storable
  x : ∃ x, n.x = .float x
  y : ∃ y, n.y = .float y

structure Wire.Storable (w : Wire) : Prop where
  id : w.id ≠ ""
  fromNode : w.fromNode.IsId
  fromPin : w.fromPin.IsId
  toNode : w.toNode.IsId
  toPin : w.toPin.IsId

structure Graph.Storable (g : Graph) : Prop where
  nodes : ∀ n ∈ g.nodes, n.Storable
  wires : ∀ w ∈ g.wires, w.Storable

namespace Document

theorem exists_of_mem_collect {α β : Type} {read : α → Except LoadError (Option β)} {as : List α}
    {bs : List β} (h : collect read as = .ok bs) {b : β} (hb : b ∈ bs) :
    ∃ a ∈ as, read a = .ok (some b) := by
  induction as generalizing bs with
  | nil =>
    cases h
    cases hb
  | cons a as ih =>
    obtain ⟨first, hfirst, h⟩ := Except.exists_of_bind_eq_ok h
    obtain ⟨others, hothers, h⟩ := Except.exists_of_bind_eq_ok h
    cases h
    obtain hb | hb := List.mem_append.mp hb
    · rw [Option.mem_toList] at hb
      exact ⟨a, List.mem_cons_self, hb ▸ hfirst⟩
    · obtain ⟨c, hc, hread⟩ := ih hothers hb
      exact ⟨c, List.mem_cons_of_mem a hc, hread⟩

theorem isId_of_idOf {v : Value} {t : Text} (h : idOf v = .ok t) (hne : t ≠ "") : t.IsId := by
  refine ⟨?_, hne⟩
  rw [idOf] at h
  cases hs : textOf v with
  | error e =>
    rw [hs] at h
    cases h
  | ok s =>
    rw [hs] at h
    rw [← Except.ok.inj h, Text.strip_strip]

theorem exists_float_of_coordinate {v w : Value} (h : coordinate v = .ok w) :
    ∃ x, w = .float x := by
  unfold coordinate at h
  split at h
  · exact ⟨_, (Except.ok.inj h).symm⟩
  · cases h
  · exact ⟨0, (Except.ok.inj h).symm⟩

theorem storable_of_readPin {nodeId : Text} {side : Direction} {v : Value} {p : Pin}
    (hn : nodeId ≠ "") (h : readPin nodeId side v = .ok (some p)) : p.Storable := by
  unfold readPin at h
  split at h
  · cases h
  obtain ⟨id, hid, h⟩ := Except.exists_of_bind_eq_ok h
  split at h
  · cases h
  rename_i hne
  obtain ⟨owner, -, h⟩ := Except.exists_of_bind_eq_ok h
  obtain ⟨label, -, h⟩ := Except.exists_of_bind_eq_ok h
  obtain ⟨type, -, h⟩ := Except.exists_of_bind_eq_ok h
  obtain ⟨direction, -, h⟩ := Except.exists_of_bind_eq_ok h
  cases h
  refine ⟨isId_of_idOf hid hne, ?_⟩
  dsimp only
  split
  · exact hn
  · assumption

theorem storable_of_readPins {nodeId : Text} {side : Direction} {v : Value} {pins : List Pin}
    (hn : nodeId ≠ "") (h : readPins nodeId side v = .ok pins) : ∀ p ∈ pins, p.Storable := by
  intro p hp
  cases v with
  | list items =>
    obtain ⟨item, -, hread⟩ := exists_of_mem_collect h hp
    exact storable_of_readPin hn hread
  | _ =>
    cases h
    cases hp

theorem storable_of_readNode {v : Value} {n : Node} (h : readNode v = .ok (some n)) :
    n.Storable := by
  unfold readNode at h
  split at h
  · cases h
  obtain ⟨id, hid, h⟩ := Except.exists_of_bind_eq_ok h
  split at h
  · cases h
  rename_i hne
  obtain ⟨kind, -, h⟩ := Except.exists_of_bind_eq_ok h
  obtain ⟨inputs, hinputs, h⟩ := Except.exists_of_bind_eq_ok h
  obtain ⟨outputs, houtputs, h⟩ := Except.exists_of_bind_eq_ok h
  obtain ⟨title, -, h⟩ := Except.exists_of_bind_eq_ok h
  obtain ⟨comment, -, h⟩ := Except.exists_of_bind_eq_ok h
  obtain ⟨x, hx, h⟩ := Except.exists_of_bind_eq_ok h
  obtain ⟨y, hy, h⟩ := Except.exists_of_bind_eq_ok h
  cases h
  exact ⟨isId_of_idOf hid hne, storable_of_readPins hne hinputs, storable_of_readPins hne houtputs,
    exists_float_of_coordinate hx, exists_float_of_coordinate hy⟩

theorem storable_of_readWire {v : Value} {position : Nat} {w : Wire}
    (h : readWire (v, position) = .ok (some w)) : w.Storable := by
  unfold readWire at h
  dsimp only at h
  split at h
  · cases h
  obtain ⟨fromNode, hfromNode, h⟩ := Except.exists_of_bind_eq_ok h
  obtain ⟨fromPin, hfromPin, h⟩ := Except.exists_of_bind_eq_ok h
  obtain ⟨toNode, htoNode, h⟩ := Except.exists_of_bind_eq_ok h
  obtain ⟨toPin, htoPin, h⟩ := Except.exists_of_bind_eq_ok h
  split at h
  · cases h
  rename_i hne
  simp only [not_or] at hne
  obtain ⟨hne₁, hne₂, hne₃, hne₄⟩ := hne
  obtain ⟨id, -, h⟩ := Except.exists_of_bind_eq_ok h
  obtain ⟨type, -, h⟩ := Except.exists_of_bind_eq_ok h
  cases h
  refine ⟨?_, isId_of_idOf hfromNode hne₁, isId_of_idOf hfromPin hne₂, isId_of_idOf htoNode hne₃,
    isId_of_idOf htoPin hne₄⟩
  dsimp only
  split
  · simp
  · assumption

theorem storable_of_read {doc : Value} {g : Graph} (h : read doc = .ok g) : g.Storable := by
  unfold read at h
  split at h
  · cases h
  obtain ⟨nodeItems, -, h⟩ := Except.exists_of_bind_eq_ok h
  obtain ⟨wireItems, -, h⟩ := Except.exists_of_bind_eq_ok h
  obtain ⟨nodes, hnodes, h⟩ := Except.exists_of_bind_eq_ok h
  obtain ⟨wires, hwires, h⟩ := Except.exists_of_bind_eq_ok h
  cases h
  constructor
  · intro n hn
    obtain ⟨v, -, hread⟩ := exists_of_mem_collect hnodes (Graph.mem_of_mem_nodes_ofLists hn)
    exact storable_of_readNode hread
  · intro w hw
    obtain ⟨v, -, hread⟩ := exists_of_mem_collect hwires hw
    exact storable_of_readWire hread

theorem collect_map {α β γ : Type} {read : α → Except LoadError (Option β)} {f : γ → α} {g : γ → β}
    {cs : List γ} (h : ∀ c ∈ cs, read (f c) = .ok (some (g c))) :
    collect read (cs.map f) = .ok (cs.map g) := by
  induction cs with
  | nil => rfl
  | cons c cs ih =>
    rw [List.map_cons, collect, h c List.mem_cons_self,
      ih fun d hd => h d (List.mem_cons_of_mem c hd)]
    rfl

theorem textOf_text (t : Text) : textOf (.text t) = .ok t := by
  by_cases h : t = ""
  · rw [h]
    rfl
  · simp [textOf, Value.plainOrEmpty, Value.isEmpty, h, Value.plain, Except.mapError]

theorem idOf_text {t : Text} (h : t.IsId) : idOf (.text t) = .ok t := by
  rw [idOf, textOf_text, Except.map, h.strip]

theorem coordinate_of_float {v : Value} (h : ∃ x, v = .float x) : coordinate v = .ok v := by
  obtain ⟨x, rfl⟩ := h
  rfl

theorem unqualified_of_isAlpha {s : String} (h : s.toList.all Char.isAlpha) :
    Tag.unqualified s = s := by
  rw [List.all_eq_true] at h
  have hblank : ∀ p ∈ Text.toList s, Text.isBlank p.toChar = false ∧ p ≠ .char '.' := by
    intro p hp
    rw [Text.toList_coe] at hp
    obtain ⟨c, hc, rfl⟩ := List.mem_map.mp hp
    constructor
    · have hrange : 65 ≤ c.toNat ∧ c.toNat ≤ 90 ∨ 97 ≤ c.toNat ∧ c.toNat ≤ 122 := by
        have hletter : (decide (65 ≤ c.val ∧ c.val ≤ 90) ||
            (decide (97 ≤ c.val) && decide (c.val ≤ 122))) = true := h c hc
        simpa [UInt32.le_iff_toNat_le] using hletter
      rw [CodePoint.toChar]
      apply Text.isBlank_eq_false_of_ascii <;> omega
    · rintro ⟨⟩
      exact absurd (h '.' hc) (by decide)
  have hstrip : Text.strip s = s := by
    apply Text.strip_eq_self
    · exact fun p hp => (hblank p (List.mem_of_mem_head? hp)).1
    · exact fun p hp => (hblank p (List.mem_of_getLast? hp)).1
  have hrest : (Text.toList s).dropWhile (· ≠ .char '.') = [] :=
    List.dropWhile_eq_nil_iff.mpr fun p hp => decide_eq_true (hblank p hp).2
  have hempty : Text.strip (.ofList ([].drop 1)) = "" := rfl
  rw [Tag.unqualified, hstrip, hrest, hempty, if_neg]
  exact fun h => h.2 rfl

theorem resolve_value {α : Type} [Vocabulary α] (default? : Option α) {m : α}
    (halpha : (Vocabulary.value m).toList.all Char.isAlpha)
    (hm : Tag.member? α (Vocabulary.value m) = some m) (hne : Vocabulary.value m ≠ "") :
    Tag.resolve α default? (.text (Vocabulary.value m)) = .ok m := by
  have hne : ¬((Vocabulary.value m : Text) = "") := fun h => hne (congrArg Text.head h)
  simp [Tag.resolve, Tag.ofValue, Tag.ofText, unqualified_of_isAlpha halpha, hne, hm,
    Except.mapError, bind, Except.bind, pure, Except.pure]

theorem resolve_type (default? : Option DataType) (t : DataType) :
    Tag.resolve DataType default? (.text t.name) = .ok t := by
  have h : ∀ t ∈ DataType.all, t.name.toList.all Char.isAlpha ∧
      Tag.member? DataType t.name = some t ∧ t.name ≠ "" := by decide +kernel
  obtain ⟨halpha, hm, hne⟩ := h t (by cases t <;> decide)
  exact resolve_value default? halpha hm hne

theorem resolve_direction (default? : Option Direction) (d : Direction) :
    Tag.resolve Direction default? (.text d.name) = .ok d := by
  cases d <;> exact resolve_value default? (by decide +kernel) rfl (by decide)

theorem resolve_kind (k : NodeKind) : Tag.resolve NodeKind none (.text k.value) = .ok k := by
  have h : ∀ k ∈ NodeKind.all, k.value.toList.all Char.isAlpha ∧
      Tag.member? NodeKind k.value = some k ∧ k.value ≠ "" := by decide +kernel
  obtain ⟨halpha, hm, hne⟩ := h k k.mem_all
  exact resolve_value none halpha hm hne

-- The keys of a written object differ, so that each look-up below finds the field by evaluation.

theorem readPin_writePin (style : KeyStyle) {p : Pin} (h : p.Storable) (nodeId : Text)
    (side : Direction) : readPin nodeId side (writePin style p) = .ok (some p) := by
  have hobject : isObject (writePin style p) = true := rfl
  have hid : idOf (field (writePin style p) "id") = .ok p.id := idOf_text h.id
  have howner : textOf (first (writePin style p) ["nodeId", "node_id"]) = .ok p.nodeId := by
    cases style <;> exact textOf_text p.nodeId
  have hlabel : labelOf (field (writePin style p) "label") = .ok p.label := by
    cases style <;> rfl
  have htype : Tag.resolve DataType (some .any)
      (first (writePin style p) ["dataType", "data_type"]) = .ok p.type := by
    cases style <;> exact resolve_type _ p.type
  have hdirection : Tag.resolve Direction (some side) (field (writePin style p) "direction") =
      .ok p.direction := by
    cases style <;> exact resolve_direction _ p.direction
  simp [readPin, hobject, hid, howner, hlabel, htype, hdirection, h.id.ne_empty, h.nodeId, bind,
    Except.bind, pure, Except.pure]

theorem readPins_writePin (style : KeyStyle) {pins : List Pin} (h : ∀ p ∈ pins, p.Storable)
    (nodeId : Text) (side : Direction) :
    readPins nodeId side (.list (pins.map (writePin style))) = .ok pins := by
  have hread := collect_map (g := id) fun p hp => readPin_writePin style (h p hp) nodeId side
  rwa [List.map_id] at hread

theorem readNode_writeNode (style : KeyStyle) {n : Node} (h : n.Storable) :
    readNode (writeNode style n) = .ok (some n) := by
  have hobject : isObject (writeNode style n) = true := rfl
  have hid : idOf (field (writeNode style n) "id") = .ok n.id := idOf_text h.id
  have hkind : Tag.resolve NodeKind none (first (writeNode style n) ["type", "kind"]) =
      .ok n.kind := resolve_kind n.kind
  have hinputs : readPins n.id .input (field (writeNode style n) "inputs") = .ok n.inputs :=
    readPins_writePin style h.inputs n.id .input
  have houtputs : readPins n.id .output (field (writeNode style n) "outputs") = .ok n.outputs :=
    readPins_writePin style h.outputs n.id .output
  have hproperties : propertiesOf (field (writeNode style n) "properties") = n.properties := rfl
  have htitle : textOf (field (writeNode style n) "title") = .ok n.title := textOf_text n.title
  have hcomment : textOf (field (writeNode style n) "comment") = .ok n.comment :=
    textOf_text n.comment
  have hx : coordinate (field (writeNode style n) "x") = .ok n.x := coordinate_of_float h.x
  have hy : coordinate (field (writeNode style n) "y") = .ok n.y := coordinate_of_float h.y
  simp [readNode, hobject, hid, hkind, hinputs, houtputs, hproperties, htitle, hcomment, hx, hy,
    h.id.ne_empty, bind, Except.bind, pure, Except.pure]

theorem readWire_writeWire (style : KeyStyle) {w : Wire} (h : w.Storable) (position : Nat) :
    readWire (writeWire style w, position) = .ok (some w) := by
  have hobject : isObject (writeWire style w) = true := rfl
  have hfromNode : idOf (first (writeWire style w) ["fromNodeId", "from_node_id"]) =
      .ok w.fromNode := by
    cases style <;> exact idOf_text h.fromNode
  have hfromPin : idOf (first (writeWire style w) ["fromPinId", "from_pin_id"]) =
      .ok w.fromPin := by
    cases style <;> exact idOf_text h.fromPin
  have htoNode : idOf (first (writeWire style w) ["toNodeId", "to_node_id"]) = .ok w.toNode := by
    cases style <;> exact idOf_text h.toNode
  have htoPin : idOf (first (writeWire style w) ["toPinId", "to_pin_id"]) = .ok w.toPin := by
    cases style <;> exact idOf_text h.toPin
  have hid : textOf (field (writeWire style w) "id") = .ok w.id := textOf_text w.id
  have htype : Tag.resolve DataType (some .any)
      (first (writeWire style w) ["dataType", "data_type"]) = .ok w.type := by
    cases style <;> exact resolve_type _ w.type
  simp [readWire, hobject, hfromNode, hfromPin, htoNode, htoPin, hid, htype, h.id,
    h.fromNode.ne_empty, h.fromPin.ne_empty, h.toNode.ne_empty, h.toPin.ne_empty, bind,
    Except.bind, pure, Except.pure]

theorem read_write_of_storable (style : KeyStyle) {g : Graph} (h : g.Storable) :
    read (write style g) = .ok g := by
  have hobject : isObject (write style g) = true := rfl
  have hnodeItems : listOr .nodesNotList (field (write style g) "nodes") =
      .ok (g.nodes.map (writeNode style)) := rfl
  have hwireItems : listOr .wiresNotList
      (((write style g).field? "wires").getD (field (write style g) "edges")) =
      .ok (g.wires.map (writeWire style)) := rfl
  have hnodes : collect readNode (g.nodes.map (writeNode style)) = .ok g.nodes := by
    have hread := collect_map (g := id) fun n hn => readNode_writeNode style (h.nodes n hn)
    rwa [List.map_id] at hread
  have hwires : collect readWire (g.wires.map (writeWire style)).zipIdx = .ok g.wires := by
    rw [List.zipIdx_map, collect_map (g := Prod.fst), List.zipIdx_map_fst]
    rintro ⟨w, position⟩ hw
    have hmem : w ∈ (g.wires.zipIdx).map Prod.fst := List.mem_map_of_mem hw
    rw [List.zipIdx_map_fst] at hmem
    exact readWire_writeWire style (h.wires w hmem) position
  simp [read, hobject, hnodeItems, hwireItems, hnodes, hwires, g.ofLists_nodes_wires, bind,
    Except.bind, pure, Except.pure]

end Document

theorem Text.isBlank_eq_false_of_isDigit {c : Char} (h : c.isDigit) : isBlank c = false := by
  have hc : 48 ≤ c.toNat ∧ c.toNat ≤ 57 := by
    simpa [Char.isDigit, UInt32.le_iff_toNat_le] using h
  apply isBlank_eq_false_of_ascii <;> omega

/-- A number at the end makes an identifier of every text that does not begin with a blank. -/
theorem Text.Unindented.isId_numbered {t : Text} (h : t.Unindented) (n : Nat) :
    (t ++ s!"_{n}").IsId := by
  have htoList : (t ++ s!"_{n}").toList =
      t.toList ++ .char '_' :: (Nat.toDigits 10 n).map .char := by
    rw [toList_append, toList_numeral]
  constructor
  · apply strip_eq_self
    · intro p hp
      rw [htoList, List.head?_append] at hp
      cases hhead : t.toList.head? with
      | none =>
        rw [hhead] at hp
        cases hp
        decide
      | some q =>
        rw [hhead] at hp
        cases hp
        exact h _ hhead
    · intro p hp
      rw [htoList, List.getLast?_append_of_ne_nil _ (List.cons_ne_nil _ _)] at hp
      obtain rfl | hp := List.mem_cons.mp (List.mem_of_getLast? hp)
      · decide
      · obtain ⟨c, hc, rfl⟩ := List.mem_map.mp hp
        exact isBlank_eq_false_of_isDigit (Nat.isDigit_of_mem_toDigits (by decide) (by decide) hc)
  · intro hempty
    rw [hempty] at htoList
    simp [toList, run] at htoList

theorem Text.IsId.unindented_of_prefix {s t : Text} (h : s.IsId) (hst : s.toList <+: t.toList) :
    t.Unindented := by
  obtain ⟨rest, hrest⟩ := hst
  intro p hp
  rw [← hrest, List.head?_append] at hp
  cases hhead : s.toList.head? with
  | none =>
    have hnil : s.toList = Text.toList "" := List.head?_eq_none_iff.mp hhead
    exact absurd (toList_injective hnil) h.ne_empty
  | some q =>
    rw [hhead] at hp
    cases hp
    have hs := unindented_strip s
    rw [h.strip] at hs
    exact hs _ hhead

theorem storable_makePins {id : Text} (h : id.IsId) {direction : Direction}
    {shapes : List PinShape} : ∀ p ∈ makePins id direction shapes, p.Storable := by
  intro p hp
  obtain ⟨⟨shape, i⟩, -, rfl⟩ := List.mem_map.mp hp
  refine ⟨(h.unindented_of_prefix ?_).isId_numbered i, h.ne_empty⟩
  rw [Text.toList_append, Text.toList_append, List.append_assoc]
  exact List.prefix_append _ _

theorem exists_float_of_add {x : Float} {a : Number} {w : Value}
    (h : ((Number.float x).add a).map Number.toValue = .ok w) : ∃ y, w = .float y := by
  cases a with
  | int n =>
    simp only [Number.add, Number.toFloat?] at h
    split at h
    · cases h
      exact ⟨_, rfl⟩
    · cases h
  | float y =>
    cases h
    exact ⟨x + y, rfl⟩

theorem exists_float_of_plus {x : Float} {v w : Value} (h : (Value.float x).plus v = .ok w) :
    ∃ y, w = .float y := by
  cases v with
  | bool b => exact exists_float_of_add (a := .int (if b then 1 else 0)) h
  | int n => exact exists_float_of_add (a := .int n) h
  | float y => exact exists_float_of_add (a := .float y) h
  | null | text _ | symbol _ | list _ | record _ => cases h

namespace Builder

def Edit.Placed : Edit → Prop
  | add _ options => (∃ x, options.x = .float x) ∧ ∃ y, options.y = .float y
  | _ => True

section

variable {b b' : Builder} {issued : List Text}

structure Storable (b : Builder) : Prop where
  idPrefix : b.idPrefix.Unindented
  nodes : ∀ n ∈ b.nodes.values, n.Storable
  wires : ∀ w ∈ b.wires, w.Storable

namespace Storable

theorem empty {idPrefix : Text} (h : idPrefix.Unindented) : Storable { idPrefix } :=
  ⟨h, by simp [OrderedMap.values], by simp⟩

theorem add (h : b.Storable) (kind : NodeKind) {options : NodeOptions}
    (hx : ∃ x, options.x = .float x) (hy : ∃ y, options.y = .float y) :
    (b.add kind options).2.Storable := by
  have hid : (b.nextId b.idPrefix).IsId := h.idPrefix.isId_numbered b.next
  refine ⟨h.idPrefix, ?_, h.wires⟩
  intro n hn
  obtain rfl | hn := OrderedMap.mem_values_insert hn
  · exact ⟨hid, storable_makePins hid, storable_makePins hid, hx, hy⟩
  · exact h.nodes n hn

theorem node_of_get? (h : b.Storable) {id : Text} {n : Node} (hn : b.nodes.get? id = some n) :
    n.Storable :=
  h.nodes n (List.mem_map.mpr ⟨_, OrderedMap.mem_of_get? hn, rfl⟩)

theorem connect (h : b.Storable) (ha : b.Accounts issued) {source target : Node}
    {sourceLabel targetLabel : Text} {w : Wire}
    (hc : b.connect source sourceLabel target targetLabel = .ok (w, b')) : b'.Storable := by
  obtain ⟨m, n, p, q, hm, hp, hn, hq, -, rfl, rfl⟩ := exists_of_connect hc
  have hsource := h.node_of_get? hm
  have htarget := h.node_of_get? hn
  refine ⟨h.idPrefix, h.nodes, ?_⟩
  intro w hw
  obtain hw | hw := List.mem_append.mp hw
  · exact h.wires w hw
  · rw [List.mem_singleton.mp hw]
    constructor
    · have hwire : Text.Unindented "wire" := by
        intro p hp
        cases hp
        decide
      exact (hwire.isId_numbered b.next).ne_empty
    · exact (ha.mem_values_of_get? hm).2 ▸ hsource.id
    · exact (hsource.outputs p hp).id
    · exact (ha.mem_values_of_get? hn).2 ▸ htarget.id
    · exact (htarget.inputs q hq).id

theorem duplicate (h : b.Storable) {id : Text} {offset : Value} {n : Node}
    (hd : b.duplicate id offset = .ok (n, b')) : b'.Storable := by
  obtain ⟨model, x, y, hmodel, hx, hy, hadd⟩ := exists_of_duplicate hd
  have hb : b' = (b.add model.kind _).2 := congrArg Prod.snd hadd
  obtain ⟨x', hx'⟩ := (h.node_of_get? hmodel).x
  obtain ⟨y', hy'⟩ := (h.node_of_get? hmodel).y
  rw [hx'] at hx
  rw [hy'] at hy
  rw [hb]
  exact h.add model.kind (exists_float_of_plus hx) (exists_float_of_plus hy)

theorem edit (h : b.Storable) (ha : b.Accounts issued) {e : Edit} (he : e.Placed) :
    (b.edit e).2.Storable := by
  cases e with
  | add kind options => exact h.add kind he.1 he.2
  | connect source sourceLabel target targetLabel =>
    rw [Builder.edit]
    split
    · exact h.connect ha ‹_›
    · exact h
  | disconnect id => exact ⟨h.idPrefix, h.nodes, fun w hw => h.wires w (List.mem_of_mem_filter hw)⟩
  | remove id =>
    exact ⟨h.idPrefix, fun n hn => h.nodes n ((List.filter_sublist.map _).subset hn),
      fun w hw => h.wires w (List.mem_of_mem_filter hw)⟩
  | duplicate id offset =>
    rw [Builder.edit]
    split
    · exact h.duplicate ‹_›
    · exact h

theorem editAll (h : b.Storable) (ha : b.Accounts issued) {edits : List Edit}
    (he : ∀ e ∈ edits, e.Placed) : (b.editAll edits).2.Storable := by
  induction edits generalizing b issued with
  | nil => exact h
  | cons e es ih =>
    rw [Builder.editAll]
    exact ih (h.edit ha (he e List.mem_cons_self)) (ha.edited (edited_edit b e))
      fun d hd => he d (List.mem_cons_of_mem e hd)

end Storable

end

end Builder

namespace Document

/-- Reading gives back every graph that was read or built by hand, from the document that holds it,
with its keys in either spelling. -/
theorem read_write (style : KeyStyle) :
    (∀ doc g, read doc = .ok g → read (write style g) = .ok g) ∧
    ∀ (idPrefix : Text) (edits : List Builder.Edit), idPrefix.Unindented →
      (∀ e ∈ edits, e.Placed) →
      read (write style (Builder.editAll { idPrefix } edits).2.build) =
        .ok (Builder.editAll { idPrefix } edits).2.build := by
  constructor
  · intro doc g h
    exact read_write_of_storable style (storable_of_read h)
  · intro idPrefix edits hprefix hplaced
    have ha := Builder.Accounts.empty idPrefix
    have h := (Builder.Storable.empty hprefix).editAll ha hplaced
    apply read_write_of_storable
    constructor
    · intro n hn
      exact h.nodes n (Graph.mem_of_mem_nodes_ofLists hn)
    · exact h.wires

namespace Untidy

def document : Value :=
  .record
    [("nodes", .list
      [.text "a", .record [("id", .text " ")],
        .record [("id", .text " a\n"), ("kind", .text "NodeKind.print_string"), ("x", .text "2"),
          ("inputs", .list [.null, .record [("id", .int 7), ("node_id", .bool true)]])]]),
      ("edges", .list
        [.record [("fromNodeId", .text "a")],
          .record [("fromNodeId", .text "a"), ("from_pin_id", .text " 0"), ("toNodeId", .text "a"),
            ("toPinId", .int 7)]])]

def edits : List Builder.Edit :=
  [.add .toString { title := some "", y := .float 3 }, .duplicate "a text_1" (.int 40),
    .connect { id := "a text_1", kind := .toString } "Result"
      { id := "a text_2", kind := .toString } "Value"]

theorem read_write_untidy :
    (∃ g, read document = .ok g ∧ g.nodes.map Node.id = ["a"] ∧ g.wires.map Wire.id = ["wire-1"] ∧
      read (write .snake g) = .ok g) ∧
    Text.Unindented "a text" ∧ (∀ e ∈ edits, e.Placed) ∧
    (Builder.editAll { idPrefix := "a text" } edits).2.build.wires.length = 1 ∧
    read (write .snake (Builder.editAll { idPrefix := "a text" } edits).2.build) =
      .ok (Builder.editAll { idPrefix := "a text" } edits).2.build := by
  have hprefix : Text.Unindented "a text" := by
    intro p hp
    cases hp
    decide
  have hplaced : ∀ e ∈ edits, e.Placed := by simp [edits, Builder.Edit.Placed]
  refine ⟨?_, hprefix, hplaced, by decide +kernel, (read_write .snake).2 _ edits hprefix hplaced⟩
  have hids : (read document).toOption.map (fun g => (g.nodes.map Node.id, g.wires.map Wire.id)) =
      some ((["a"] : List Text), (["wire-1"] : List Text)) := by decide +kernel
  obtain ⟨g, hg, hids⟩ := Option.map_eq_some_iff.mp hids
  have h : read document = .ok g := Except.eq_ok_of_toOption hg
  obtain ⟨hnodes, hwires⟩ := Prod.mk.inj hids
  exact ⟨g, h, hnodes, hwires, (read_write .snake).1 document g h⟩

end Untidy

end Document

end NodeScript
