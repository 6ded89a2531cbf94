import Mathlib.Data.List.Nodup
import NodeScript.Graph.Builder
import NodeScript.Proofs.Except

/-!
What a builder has made. Whatever is asked of it, the identifiers that it gives out differ, its
wires have both their ends, and no data input has two of them; a refused step changes nothing.
-/

namespace NodeScript

theorem toList_numeral (n : Nat) :
    Text.toList s!"_{n}" = .char '_' :: (Nat.toDigits 10 n).map .char := by
  rw [Text.toList_coe, String.toList_append]
  exact congrArg (.char '_' :: ·.map CodePoint.char) Nat.toList_repr

theorem numbered_injective {s t : Text} {m n : Nat} (h : s ++ s!"_{m}" = t ++ s!"_{n}") :
    m = n := by
  have hdigits (s : Text) (n : Nat) :
      (s ++ s!"_{n}").toList.reverse.takeWhile (· ≠ .char '_') =
        ((Nat.toDigits 10 n).map CodePoint.char).reverse := by
    have hnone : ∀ p ∈ ((Nat.toDigits 10 n).map CodePoint.char).reverse,
        decide (p ≠ .char '_') = true := by
      intro p hp
      rw [List.mem_reverse, List.mem_map] at hp
      obtain ⟨c, hc, rfl⟩ := hp
      rw [decide_eq_true_iff]
      rintro ⟨⟩
      exact Nat.underscore_not_in_toDigits hc
    rw [Text.toList_append, toList_numeral, List.reverse_append, List.reverse_cons,
      List.append_assoc, List.takeWhile_append_of_pos hnone]
    simp
  have hmap := (hdigits s m).symm.trans (h ▸ hdigits t n)
  have hchars : Function.Injective CodePoint.char := fun _ _ h => CodePoint.char.inj h
  have heq := List.map_injective_iff.mpr hchars (List.reverse_injective hmap)
  rw [← @Nat.ofDigitChars_ten_toDigits m, heq, Nat.ofDigitChars_ten_toDigits]

theorem nodup_makePins (id : Text) (direction : Direction) (shapes : List PinShape) :
    ((makePins id direction shapes).map Pin.id).Nodup := by
  have hidx : (shapes.zipIdx.map Prod.snd).Nodup := by
    rw [List.zipIdx_map_snd]
    exact List.nodup_range'
  rw [makePins, List.map_map, List.Nodup, List.pairwise_map]
  rw [List.Nodup, List.pairwise_map] at hidx
  exact hidx.imp fun hne heq => hne (numbered_injective heq)

theorem exists_toList_of_mem_makePins {id : Text} {direction : Direction} {shapes : List PinShape}
    {p : Pin} (h : p ∈ makePins id direction shapes) :
    ∃ rest, p.id.toList = id.toList ++ (Text.toList s!"_{direction.name}_" ++ rest) := by
  obtain ⟨⟨shape, i⟩, -, rfl⟩ := List.mem_map.mp h
  simp only [Text.toList_append, List.append_assoc]
  exact ⟨_, rfl⟩

theorem nodup_pins_makeNode (kind : NodeKind) (id : Text) (options : NodeOptions) :
    (((makeNode kind id options).inputs ++
      (makeNode kind id options).outputs).map Pin.id).Nodup := by
  rw [List.map_append, List.nodup_append]
  refine ⟨nodup_makePins id _ _, nodup_makePins id _ _, ?_⟩
  intro x hx y hy h
  obtain ⟨p, hp, rfl⟩ := List.mem_map.mp hx
  obtain ⟨q, hq, rfl⟩ := List.mem_map.mp hy
  obtain ⟨rest, hrest⟩ := exists_toList_of_mem_makePins hp
  obtain ⟨rest', hrest'⟩ := exists_toList_of_mem_makePins hq
  rw [h, hrest'] at hrest
  cases List.append_cancel_left hrest

/-- Nodes, wires and the pins of each node have identifiers of their own, every wire leads from an
output to an input, and no data input has two wires. -/
structure WellWired (nodes : List Node) (wires : List Wire) : Prop where
  nodeIds : (nodes.map Node.id).Nodup
  wireIds : (wires.map Wire.id).Nodup
  pinIds : ∀ n ∈ nodes, ((n.inputs ++ n.outputs).map Pin.id).Nodup
  source : ∀ w ∈ wires, ∃ n ∈ nodes, n.id = w.fromNode ∧ ∃ p ∈ n.outputs, p.id = w.fromPin
  target : ∀ w ∈ wires, ∃ n ∈ nodes, n.id = w.toNode ∧ ∃ p ∈ n.inputs, p.id = w.toPin
  single : ∀ n ∈ nodes, ∀ p ∈ n.inputs, p.isExec = false →
    (wires.filter (·.target = (n.id, p.id))).length ≤ 1

namespace WellWired

variable {nodes nodes' : List Node} {wires wires' : List Wire} {node : Node} {wire : Wire}
  {pin : Pin}

theorem empty : WellWired [] [] :=
  ⟨List.nodup_nil, List.nodup_nil, by simp, by simp, by simp, by simp⟩

theorem addNode (h : WellWired nodes wires) (hid : node.id ∉ nodes.map Node.id)
    (hpins : ((node.inputs ++ node.outputs).map Pin.id).Nodup) :
    WellWired (nodes ++ [node]) wires where
  nodeIds := by
    rw [← List.concat_eq_append, List.map_concat]
    exact h.nodeIds.concat hid
  wireIds := h.wireIds
  pinIds := by
    intro n hn
    obtain hn | hn := List.mem_append.mp hn
    · exact h.pinIds n hn
    · rwa [List.mem_singleton.mp hn]
  source w hw := by
    obtain ⟨n, hn, hs⟩ := h.source w hw
    exact ⟨n, List.mem_append_left _ hn, hs⟩
  target w hw := by
    obtain ⟨n, hn, ht⟩ := h.target w hw
    exact ⟨n, List.mem_append_left _ hn, ht⟩
  single := by
    intro n hn p hp he
    obtain hn | hn := List.mem_append.mp hn
    · exact h.single n hn p hp he
    · -- No wire leads to a node that was not there.
      rw [List.mem_singleton.mp hn, List.filter_eq_nil_iff.mpr]
      · exact Nat.zero_le 1
      · intro w hw ht
        obtain ⟨m, hm, hto, -⟩ := h.target w hw
        have hnode : w.toNode = node.id := congrArg Prod.fst (of_decide_eq_true ht)
        exact hid (List.mem_map.mpr ⟨m, hm, hto.trans hnode⟩)

theorem eq_of_id_eq (h : WellWired nodes wires) {m n : Node} (hm : m ∈ nodes) (hn : n ∈ nodes)
    (he : m.id = n.id) : m = n := List.inj_on_of_nodup_map h.nodeIds hm hn he

theorem input_eq_of_id_eq (h : WellWired nodes wires) (hn : node ∈ nodes) {p q : Pin}
    (hp : p ∈ node.inputs) (hq : q ∈ node.inputs) (he : p.id = q.id) : p = q :=
  List.inj_on_of_nodup_map (h.pinIds node hn) (List.mem_append_left _ hp)
    (List.mem_append_left _ hq) he

theorem addWire (h : WellWired nodes wires) (hid : wire.id ∉ wires.map Wire.id)
    (hsource : ∃ n ∈ nodes, n.id = wire.fromNode ∧ ∃ p ∈ n.outputs, p.id = wire.fromPin)
    (hnode : node ∈ nodes) (hto : node.id = wire.toNode) (hpin : pin ∈ node.inputs)
    (hat : pin.id = wire.toPin)
    (hfree : pin.isExec = false → ∀ w ∈ wires, w.target ≠ wire.target) :
    WellWired nodes (wires ++ [wire]) where
  nodeIds := h.nodeIds
  wireIds := by
    rw [← List.concat_eq_append, List.map_concat]
    exact h.wireIds.concat hid
  pinIds := h.pinIds
  source w hw := by
    obtain hw | hw := List.mem_append.mp hw
    · exact h.source w hw
    · rwa [List.mem_singleton.mp hw]
  target w hw := by
    obtain hw | hw := List.mem_append.mp hw
    · exact h.target w hw
    · rw [List.mem_singleton.mp hw]
      exact ⟨node, hnode, hto, pin, hpin, hat⟩
  single := by
    intro n hn p hp he
    rw [List.filter_append]
    by_cases ht : wire.target = (n.id, p.id)
    · -- The wire leads to this pin, which was free.
      obtain rfl : n = node := h.eq_of_id_eq hn hnode ((congrArg Prod.fst ht).symm.trans hto.symm)
      obtain rfl : p = pin :=
        h.input_eq_of_id_eq hn hp hpin ((congrArg Prod.snd ht).symm.trans hat.symm)
      have hnone : wires.filter (·.target = (n.id, p.id)) = [] := by
        rw [List.filter_eq_nil_iff]
        intro w hw hw'
        exact hfree he w hw ((of_decide_eq_true hw').trans ht.symm)
      simp [hnone, ht]
    · simpa [ht] using h.single n hn p hp he

theorem restrict (h : WellWired nodes wires) (hn : nodes'.Sublist nodes)
    (hw : wires'.Sublist wires)
    (hkept : ∀ w ∈ wires', ∀ n ∈ nodes, n.id = w.fromNode ∨ n.id = w.toNode → n ∈ nodes') :
    WellWired nodes' wires' where
  nodeIds := h.nodeIds.sublist (hn.map _)
  wireIds := h.wireIds.sublist (hw.map _)
  pinIds n hm := h.pinIds n (hn.subset hm)
  source w hm := by
    obtain ⟨n, hnode, hfrom, hp⟩ := h.source w (hw.subset hm)
    exact ⟨n, hkept w hm n hnode (.inl hfrom), hfrom, hp⟩
  target w hm := by
    obtain ⟨n, hnode, hto, hp⟩ := h.target w (hw.subset hm)
    exact ⟨n, hkept w hm n hnode (.inr hto), hto, hp⟩
  single n hm p hp he :=
    Nat.le_trans (hw.filter _).length_le (h.single n (hn.subset hm) p hp he)

end WellWired

namespace Builder

inductive Edit
  | add (kind : NodeKind) (options : NodeOptions)
  | connect (source : Node) (sourceLabel : Text) (target : Node) (targetLabel : Text)
  | disconnect (wireId : Text)
  | remove (nodeId : Text)
  | duplicate (nodeId : Text) (offset : Value)

/-- Do what is asked, unless it is refused. The first component holds the identifier of a new node
or wire. -/
def edit (b : Builder) : Edit → List Text × Builder
  | .add kind options =>
    let (node, b) := b.add kind options
    ([node.id], b)
  | .connect source sourceLabel target targetLabel =>
    match b.connect source sourceLabel target targetLabel with
    | .ok (wire, b) => ([wire.id], b)
    | .error _ => ([], b)
  | .disconnect wireId => ([], b.disconnect wireId)
  | .remove nodeId => ([], b.remove nodeId)
  | .duplicate nodeId offset =>
    match b.duplicate nodeId offset with
    | .ok (node, b) => ([node.id], b)
    | .error _ => ([], b)

def editAll (b : Builder) : List Edit → List Text × Builder
  | [] => ([], b)
  | e :: es =>
    let (first, b) := b.edit e
    let (others, b) := b.editAll es
    (first ++ others, b)

section

variable {b b' : Builder} {issued ids : List Text}

/-- What an edit comes to: the identifiers it gives out and the builder it leaves. -/
inductive Edited (b : Builder) : List Text → Builder → Prop
  | unchanged : Edited b [] b
  | node (kind : NodeKind) (options : NodeOptions) :
    Edited b [b.nextId b.idPrefix] (b.add kind options).2
  | wire {w : Wire} {source target : Node} {p q : Pin} (hid : w.id = b.nextId "wire")
    (hs : b.nodes.get? w.fromNode = some source) (hp : p ∈ source.outputs) (hp' : p.id = w.fromPin)
    (ht : b.nodes.get? w.toNode = some target) (hq : q ∈ target.inputs) (hq' : q.id = w.toPin)
    (hfree : q.isExec = false → ∀ v ∈ b.wires, v.target ≠ w.target) :
    Edited b [w.id] { b with next := b.next + 1, wires := b.wires ++ [w] }
  | disconnected (id : Text) : Edited b [] (b.disconnect id)
  | removed (id : Text) : Edited b [] (b.remove id)

theorem exists_of_pin {id label : Text} {direction : Direction} {p : Pin}
    (h : b.pin id direction label = .ok p) :
    ∃ n, b.nodes.get? id = some n ∧
      p ∈ match direction with
        | .input => n.inputs
        | .output => n.outputs := by
  unfold pin at h
  split at h
  · cases h
  · rename_i n hn
    refine ⟨n, hn, ?_⟩
    cases direction with
    | input =>
      dsimp only at h ⊢
      split at h
      · rename_i hp
        cases h
        exact List.mem_of_find?_eq_some hp
      · cases h
    | output =>
      dsimp only at h ⊢
      split at h
      · rename_i hp
        cases h
        exact List.mem_of_find?_eq_some hp
      · cases h

theorem exists_of_connect {source target : Node} {sourceLabel targetLabel : Text} {w : Wire}
    (h : b.connect source sourceLabel target targetLabel = .ok (w, b')) :
    ∃ m n p q, b.nodes.get? source.id = some m ∧ p ∈ m.outputs ∧ b.nodes.get? target.id = some n ∧
      q ∈ n.inputs ∧ (q.isExec = false → ∀ v ∈ b.wires, v.target ≠ (target.id, q.id)) ∧
      w = ⟨b.nextId "wire", source.id, p.id, target.id, q.id,
        if p.type = .any then q.type else p.type⟩ ∧
      b' = { b with next := b.next + 1, wires := b.wires ++ [w] } := by
  unfold connect at h
  cases hs : b.pin source.id .output sourceLabel with
  | error e => simp [hs, bind, Except.bind] at h
  | ok p =>
    cases ht : b.pin target.id .input targetLabel with
    | error e => simp [hs, ht, bind, Except.bind] at h
    | ok q =>
      obtain ⟨m, hm, hp⟩ := exists_of_pin hs
      obtain ⟨n, hn, hq⟩ := exists_of_pin ht
      simp only [hs, ht, bind, Except.bind] at h
      split at h
      · cases h
      · rename_i hfree
        cases h
        refine ⟨m, n, p, q, hm, hp, hn, hq, ?_, rfl, rfl⟩
        intro he v hv hv'
        have hany : b.wires.any (·.target = (target.id, q.id)) = true :=
          List.any_eq_true.mpr ⟨v, hv, decide_eq_true hv'⟩
        exact hfree (by simp [he, hany])

theorem edited_connect {source target : Node} {sourceLabel targetLabel : Text} {w : Wire}
    (h : b.connect source sourceLabel target targetLabel = .ok (w, b')) :
    Edited b [w.id] b' := by
  obtain ⟨m, n, p, q, hm, hp, hn, hq, hfree, rfl, rfl⟩ := exists_of_connect h
  exact .wire rfl hm hp rfl hn hq rfl hfree

theorem exists_of_duplicate {id : Text} {offset : Value} {n : Node}
    (h : b.duplicate id offset = .ok (n, b')) :
    ∃ model x y, b.nodes.get? id = some model ∧ model.x.plus offset = .ok x ∧
      model.y.plus offset = .ok y ∧
      (n, b') = b.add model.kind
        { x, y, properties := model.properties.entries, title := some model.title,
          comment := model.comment } := by
  unfold duplicate at h
  split at h
  · cases h
  · rename_i model hmodel
    obtain ⟨x, hx, h⟩ := Except.exists_of_bind_eq_ok h
    obtain ⟨y, hy, h⟩ := Except.exists_of_bind_eq_ok h
    obtain ⟨properties, hproperties, h⟩ := Except.exists_of_bind_eq_ok h
    obtain ⟨rfl, -⟩ := copied_eq_ok_iff.mp (Except.eq_ok_of_mapError hproperties)
    exact ⟨model, x, y, hmodel, Except.eq_ok_of_mapError hx, Except.eq_ok_of_mapError hy,
      (Except.ok.inj h).symm⟩

theorem edited_duplicate {id : Text} {offset : Value} {n : Node}
    (h : b.duplicate id offset = .ok (n, b')) : Edited b [n.id] b' := by
  obtain ⟨model, x, y, -, -, -, h⟩ := exists_of_duplicate h
  cases h
  exact .node model.kind _

theorem edited_edit (b : Builder) (e : Edit) : Edited b (b.edit e).1 (b.edit e).2 := by
  cases e with
  | add kind options => exact .node kind options
  | connect source sourceLabel target targetLabel =>
    rw [edit]
    split
    · exact edited_connect ‹_›
    · exact .unchanged
  | disconnect id => exact .disconnected id
  | remove id => exact .removed id
  | duplicate id offset =>
    rw [edit]
    split
    · exact edited_duplicate ‹_›
    · exact .unchanged

/-- The builder is well wired, and all its identifiers are among those given out, which differ and
whose numbers lie below the next one. -/
structure Accounts (b : Builder) (issued : List Text) : Prop where
  wellWired : WellWired b.nodes.values b.wires
  keyed : b.nodes.KeyedBy Node.id
  nodup : issued.Nodup
  numbered : ∀ id ∈ issued, ∃ (stem : Text) (n : Nat), n < b.next ∧ id = stem ++ s!"_{n}"
  nodes : ∀ n ∈ b.nodes.values, n.id ∈ issued
  wires : ∀ w ∈ b.wires, w.id ∈ issued

namespace Accounts

theorem empty (idPrefix : Text) : Accounts { idPrefix } [] :=
  ⟨.empty, by simp [OrderedMap.KeyedBy], List.nodup_nil, by simp,
    by simp [OrderedMap.values], by simp⟩

theorem nextId_not_mem (h : b.Accounts issued) (stem : Text) : b.nextId stem ∉ issued := by
  intro hm
  obtain ⟨stem', n, hlt, hid⟩ := h.numbered _ hm
  have hn : b.next = n := numbered_injective hid
  omega

theorem numbered_concat (h : b.Accounts issued) (stem : Text) :
    (issued ++ [b.nextId stem]).Nodup ∧
      ∀ id ∈ issued ++ [b.nextId stem],
        ∃ (stem : Text) (n : Nat), n < b.next + 1 ∧ id = stem ++ s!"_{n}" := by
  constructor
  · rw [← List.concat_eq_append]
    exact h.nodup.concat (h.nextId_not_mem stem)
  · intro id hid
    obtain hid | hid := List.mem_append.mp hid
    · obtain ⟨stem, n, hlt, he⟩ := h.numbered id hid
      exact ⟨stem, n, Nat.lt_succ_of_lt hlt, he⟩
    · exact ⟨stem, b.next, b.next.lt_succ_self, List.mem_singleton.mp hid⟩

theorem nextId_not_mem_nodes (h : b.Accounts issued) (stem : Text) :
    b.nextId stem ∉ b.nodes.values.map Node.id := by
  intro hm
  obtain ⟨n, hn, hid⟩ := List.mem_map.mp hm
  exact h.nextId_not_mem stem (hid ▸ h.nodes n hn)

theorem nextId_not_mem_wires (h : b.Accounts issued) (stem : Text) :
    b.nextId stem ∉ b.wires.map Wire.id := by
  intro hm
  obtain ⟨w, hw, hid⟩ := List.mem_map.mp hm
  exact h.nextId_not_mem stem (hid ▸ h.wires w hw)

/-- No wire leads from or to a node that is still to be made. -/
theorem nextId_untouched (h : b.Accounts issued) (stem : Text) {w : Wire} (hw : w ∈ b.wires) :
    w.fromNode ≠ b.nextId stem ∧ w.toNode ≠ b.nextId stem := by
  obtain ⟨m, hm, hfrom, -⟩ := h.wellWired.source w hw
  obtain ⟨n, hn, hto, -⟩ := h.wellWired.target w hw
  constructor
  · intro he
    exact h.nextId_not_mem_nodes stem (List.mem_map.mpr ⟨m, hm, hfrom.trans he⟩)
  · intro he
    exact h.nextId_not_mem_nodes stem (List.mem_map.mpr ⟨n, hn, hto.trans he⟩)

theorem nodes_add (h : b.Accounts issued) (kind : NodeKind) (options : NodeOptions) :
    (b.add kind options).2.nodes =
      ⟨b.nodes.entries ++ [((b.add kind options).1.id, (b.add kind options).1)]⟩ :=
  OrderedMap.insert_of_not_mem (h.keyed.keys_eq ▸ h.nextId_not_mem_nodes b.idPrefix) _

theorem add (h : b.Accounts issued) (kind : NodeKind) (options : NodeOptions) :
    (b.add kind options).2.Accounts (issued ++ [b.nextId b.idPrefix]) := by
  have hnodes := h.nodes_add kind options
  have hvalues : (b.add kind options).2.nodes.values =
      b.nodes.values ++ [(b.add kind options).1] := by
    rw [hnodes, OrderedMap.values, List.map_append]
    rfl
  obtain ⟨hnodup, hnumbered⟩ := h.numbered_concat b.idPrefix
  refine ⟨?_, ?_, hnodup, hnumbered, ?_, fun w hw => List.mem_append_left _ (h.wires w hw)⟩
  · rw [hvalues]
    exact h.wellWired.addNode (h.nextId_not_mem_nodes b.idPrefix)
      (nodup_pins_makeNode kind _ options)
  · rw [hnodes]
    intro e he
    obtain he | he := List.mem_append.mp he
    · exact h.keyed e he
    · rw [List.mem_singleton.mp he]
  · rw [hvalues]
    intro n hn
    obtain hn | hn := List.mem_append.mp hn
    · exact List.mem_append_left _ (h.nodes n hn)
    · rw [List.mem_singleton.mp hn]
      exact List.mem_append_right _ (List.mem_singleton.mpr rfl)

theorem mem_values_of_get? (h : b.Accounts issued) {id : Text} {n : Node}
    (hn : b.nodes.get? id = some n) : n ∈ b.nodes.values ∧ n.id = id :=
  have he := OrderedMap.mem_of_get? hn
  ⟨List.mem_map.mpr ⟨_, he, rfl⟩, (h.keyed _ he).symm⟩

theorem disconnect (h : b.Accounts issued) (id : Text) : (b.disconnect id).Accounts issued where
  wellWired := h.wellWired.restrict (List.Sublist.refl _) List.filter_sublist fun _ _ _ hn _ => hn
  keyed := h.keyed
  nodup := h.nodup
  numbered := h.numbered
  nodes := h.nodes
  wires w hw := h.wires w (List.mem_of_mem_filter hw)

theorem remove (h : b.Accounts issued) (id : Text) : (b.remove id).Accounts issued where
  wellWired := by
    refine h.wellWired.restrict (List.filter_sublist.map _) List.filter_sublist ?_
    intro w hw n hn hend
    -- A wire that is left has its ends at other nodes, and these are left too.
    obtain ⟨hfrom, hto⟩ := of_decide_eq_true (List.mem_filter.mp hw).2
    obtain ⟨e, he, rfl⟩ := List.mem_map.mp hn
    have hid : e.1 ≠ id := by
      rw [h.keyed e he]
      obtain hend | hend := hend
      · exact hend ▸ hfrom
      · exact hend ▸ hto
    exact List.mem_map.mpr ⟨e, List.mem_filter.mpr ⟨he, decide_eq_true hid⟩, rfl⟩
  keyed e he := h.keyed e (List.mem_of_mem_filter he)
  nodup := h.nodup
  numbered := h.numbered
  nodes n hn := h.nodes n ((List.filter_sublist.map _).subset hn)
  wires w hw := h.wires w (List.mem_of_mem_filter hw)

theorem edited (h : b.Accounts issued) (he : Edited b ids b') : b'.Accounts (issued ++ ids) := by
  cases he with
  | unchanged => rwa [List.append_nil]
  | node kind options => exact h.add kind options
  | @wire w source target p q hid hs hp hp' ht hq hq' hfree =>
    obtain ⟨hsource, hfrom⟩ := h.mem_values_of_get? hs
    obtain ⟨htarget, hto⟩ := h.mem_values_of_get? ht
    obtain ⟨hnodup, hnumbered⟩ := h.numbered_concat "wire"
    rw [← hid] at hnodup hnumbered
    have hnew : w.id ∉ b.wires.map Wire.id := hid ▸ h.nextId_not_mem_wires "wire"
    refine ⟨?_, h.keyed, hnodup, hnumbered, fun n hn => List.mem_append_left _ (h.nodes n hn), ?_⟩
    · exact h.wellWired.addWire hnew ⟨source, hsource, hfrom, p, hp, hp'⟩ htarget hto hq hq' hfree
    · intro v hv
      obtain hv | hv := List.mem_append.mp hv
      · exact List.mem_append_left _ (h.wires v hv)
      · rw [List.mem_singleton.mp hv]
        exact List.mem_append_right _ (List.mem_singleton.mpr rfl)
  | disconnected id =>
    rw [List.append_nil]
    exact h.disconnect id
  | removed id =>
    rw [List.append_nil]
    exact h.remove id

theorem editAll (h : b.Accounts issued) (es : List Edit) :
    (b.editAll es).2.Accounts (issued ++ (b.editAll es).1) := by
  induction es generalizing b issued with
  | nil => rwa [Builder.editAll, List.append_nil]
  | cons e es ih =>
    rw [Builder.editAll]
    dsimp only
    rw [← List.append_assoc]
    exact ih (h.edited (edited_edit b e))

end Accounts

theorem nodes_build (h : b.Accounts issued) : b.build.nodes = b.nodes.values :=
  OrderedMap.values_firstBy h.wellWired.nodeIds

theorem incoming?_build (h : b.Accounts issued) {n : Node} (hn : n ∈ b.nodes.values) {p : Pin}
    (hp : p ∈ n.inputs) (he : p.isExec = false) {w : Wire} (hw : w ∈ b.wires)
    (ht : w.target = (n.id, p.id)) :
    b.build.incoming? n.id p.id = some w ∧ b.wires.filter (·.target = (n.id, p.id)) = [w] := by
  have hfilter : b.wires.filter (·.target = (n.id, p.id)) = [w] := by
    have hmem : w ∈ b.wires.filter (·.target = (n.id, p.id)) :=
      List.mem_filter.mpr ⟨hw, decide_eq_true ht⟩
    have hlength := h.wellWired.single n hn p hp he
    obtain ⟨v, hv⟩ := List.length_eq_one_iff.mp
      (Nat.le_antisymm hlength (List.length_pos_of_mem hmem))
    rw [hv, List.mem_singleton] at hmem
    rw [hv, hmem]
  refine ⟨?_, hfilter⟩
  have hfind : b.build.incoming? n.id p.id = b.wires.find? (·.target = (n.id, p.id)) :=
    OrderedMap.get?_firstBy Wire.target b.wires (n.id, p.id)
  rw [hfind, ← List.head?_filter, hfilter]
  rfl

/-- Whatever is asked of a new builder: no identifier is given out twice, its nodes and wires fit
together, the graph that is built keeps all of them, and a data input with a wire has only the one
that the graph finds there. -/
theorem editAll_wellWired (idPrefix : Text) (edits : List Edit) :
    ∃ issued b, editAll { idPrefix } edits = (issued, b) ∧ issued.Nodup ∧
      WellWired b.nodes.values b.wires ∧ (∀ n ∈ b.nodes.values, n.id ∈ issued) ∧
      (∀ w ∈ b.wires, w.id ∈ issued) ∧ b.build.nodes = b.nodes.values ∧
      b.build.wires = b.wires ∧
      ∀ n ∈ b.build.nodes, ∀ p ∈ n.inputs, p.isExec = false → ∀ w ∈ b.build.wires,
        w.target = (n.id, p.id) → b.build.incoming? n.id p.id = some w ∧
          b.build.wires.filter (·.target = (n.id, p.id)) = [w] := by
  have h := (Accounts.empty idPrefix).editAll edits
  rw [List.nil_append] at h
  have hnodes := nodes_build h
  refine ⟨_, _, rfl, h.nodup, h.wellWired, h.nodes, h.wires, hnodes, rfl, ?_⟩
  intro n hn p hp he w hw ht
  rw [hnodes] at hn
  exact incoming?_build h hn hp he hw ht

end

/-- The second wire into a data input is refused, also where the node that is given is not the
builder's own. -/
example :
    let foreign : Node := { id := "node_2", kind := .stringLiteral }
    let printed : Node := { id := "node_1", kind := .printString }
    (editAll {} [.add .printString {}, .add .stringLiteral {},
      .connect foreign "Value" printed "In String", .connect foreign "Value" printed "In String",
      .duplicate "node_1" (.float 40)]).1 = ["node_1", "node_2", "wire_3", "node_4"] := by
  decide +kernel

end Builder

end NodeScript
