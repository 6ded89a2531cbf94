import Mathlib.Data.List.Forall2
import NodeScript.Proofs.Building
import NodeScript.Proofs.Texts

/-!
Copies of nodes. A node is not copied field by field: it is made anew from the template of its kind,
with the properties of the original laid over those of the template. The copy is like the original
because every node of a builder has been made from its template, whatever was asked of the builder.
-/

namespace NodeScript

/-- The same pin on another node: its identifier begins with that node's in place of the old one. -/
structure Pin.Moved (old new : Text) (p q : Pin) : Prop where
  nodeId : p.nodeId = old ∧ q.nodeId = new
  id : ∃ rest : Text, p.id = old ++ rest ∧ q.id = new ++ rest
  label : q.label = p.label
  type : q.type = p.type
  direction : q.direction = p.direction

namespace Node

/-- A node that differs from the model only in its identifiers and its place. -/
structure CopyOf (model copy : Node) : Prop where
  kind : copy.kind = model.kind
  inputs : List.Forall₂ (Pin.Moved model.id copy.id) model.inputs copy.inputs
  outputs : List.Forall₂ (Pin.Moved model.id copy.id) model.outputs copy.outputs
  properties : copy.properties = model.properties
  title : copy.title = model.title
  comment : copy.comment = model.comment

def Templated (n : Node) : Prop := ∃ options, n = makeNode n.kind n.id options

end Node

theorem moved_makePins (old new : Text) (direction : Direction) (shapes : List PinShape) :
    List.Forall₂ (Pin.Moved old new) (makePins old direction shapes)
      (makePins new direction shapes) := by
  rw [makePins, makePins, List.forall₂_map_left_iff, List.forall₂_map_right_iff, List.forall₂_same]
  rintro ⟨shape, i⟩ -
  have hid (id s t u : Text) : id ++ s ++ t ++ u = id ++ (s ++ (t ++ u)) := by
    simp only [Text.append_assoc]
  exact ⟨⟨rfl, rfl⟩, ⟨_, hid old _ _ _, hid new _ _ _⟩, rfl, rfl, rfl⟩

theorem NodeKind.nodup_keys_properties (k : NodeKind) : k.template.properties.keys.Nodup := by
  cases k <;> decide

/-- What the node has got from its template stands first among its properties, so that they can be
laid over the template once more. -/
theorem Node.Templated.properties_eq {n : Node} (h : n.Templated) :
    n.kind.template.properties.insertMany n.properties.entries = n.properties := by
  obtain ⟨options, hn⟩ := h
  have hproperties : n.properties = n.kind.template.properties.insertMany options.properties :=
    congrArg Node.properties hn
  obtain ⟨hfirst, hnodup⟩ := n.kind.template.properties.keys_insertMany options.properties
  rw [hproperties]
  exact OrderedMap.insertMany_entries hfirst (hnodup n.kind.nodup_keys_properties)

theorem Node.Templated.copyOf_makeNode {model : Node} (h : model.Templated) (id : Text)
    (x y : Value) :
    model.CopyOf (makeNode model.kind id
      { x, y, properties := model.properties.entries, title := some model.title,
        comment := model.comment }) where
  kind := rfl
  inputs := by
    obtain ⟨options, hmodel⟩ := h
    rw [show model.inputs = makePins model.id .input model.kind.template.inputs from
      congrArg Node.inputs hmodel]
    exact moved_makePins model.id id .input _
  outputs := by
    obtain ⟨options, hmodel⟩ := h
    rw [show model.outputs = makePins model.id .output model.kind.template.outputs from
      congrArg Node.outputs hmodel]
    exact moved_makePins model.id id .output _
  properties := h.properties_eq
  title := rfl
  comment := rfl

namespace Builder

section

variable {b b' : Builder} {issued ids : List Text}

theorem editAll_preserves {P : Builder → Prop}
    (hstep : ∀ {b ids b'}, P b → Edited b ids b' → P b') (h : P b) (edits : List Edit) :
    P (b.editAll edits).2 := by
  induction edits generalizing b with
  | nil => exact h
  | cons e es ih => exact ih (hstep h (edited_edit b e))

def Templated (b : Builder) : Prop := ∀ n ∈ b.nodes.values, n.Templated

theorem Templated.edited (h : b.Templated) (he : Edited b ids b') : b'.Templated := by
  cases he with
  | unchanged => exact h
  | node kind options =>
    intro n hn
    rcases OrderedMap.mem_values_insert hn with rfl | hn
    · exact ⟨options, rfl⟩
    · exact h n hn
  | wire => exact h
  | disconnected id => exact h
  | removed id =>
    intro n hn
    exact h n ((List.filter_sublist.map _).subset hn)

/-- A copy of the model has been added at this place, and nothing else has changed. -/
structure Duplicated (b : Builder) (model : Node) (x y : Value) (copy : Node) (b' : Builder) :
    Prop where
  copyOf : model.CopyOf copy
  x_eq : copy.x = x
  y_eq : copy.y = y
  nodes : b'.nodes.entries = b.nodes.entries ++ [(copy.id, copy)]
  new : copy.id ∉ b.nodes.keys
  wires : b'.wires = b.wires
  unwired : ∀ w ∈ b'.wires, w.fromNode ≠ copy.id ∧ w.toNode ≠ copy.id

theorem duplicate_eq_ok {id : Text} {model : Node} (hmodel : b.nodes.get? id = some model)
    {offset x y : Value} (hx : model.x.plus offset = .ok x) (hy : model.y.plus offset = .ok y)
    (hc : 2 * (Value.record model.properties.entries).depth 1 ≤ Value.depthLimit) :
    b.duplicate id offset = .ok (b.add model.kind
      { x, y, properties := model.properties.entries, title := some model.title,
        comment := model.comment }) := by
  unfold duplicate
  rw [hmodel]
  dsimp only
  rw [hx, hy, copied_eq_ok_iff.mpr ⟨rfl, hc⟩]
  rfl

theorem fault_of_duplicate {id : Text} {model : Node} (hmodel : b.nodes.get? id = some model)
    {offset : Value} {e : BuildError} (he : b.duplicate id offset = .error e) :
    ∃ f, e = .fault f ∧ (model.x.plus offset = .error f ∨ model.y.plus offset = .error f ∨
      f = .copyTooDeep ∧
        Value.depthLimit < 2 * (Value.record model.properties.entries).depth 1) := by
  unfold duplicate at he
  rw [hmodel] at he
  dsimp only at he
  cases hx : model.x.plus offset with
  | error f =>
    rw [hx] at he
    cases he
    exact ⟨f, rfl, .inl rfl⟩
  | ok x =>
    cases hy : model.y.plus offset with
    | error f =>
      rw [hx, hy] at he
      cases he
      exact ⟨f, rfl, .inr (.inl rfl)⟩
    | ok y =>
      by_cases hc : 2 * (Value.record model.properties.entries).depth 1 ≤ Value.depthLimit
      · rw [hx, hy, copied_eq_ok_iff.mpr ⟨rfl, hc⟩] at he
        cases he
      · rw [hx, hy, copied, if_neg hc] at he
        cases he
        exact ⟨.copyTooDeep, rfl, .inr (.inr ⟨rfl, Nat.lt_of_not_le hc⟩)⟩

theorem Accounts.duplicated_add (h : b.Accounts issued) {model : Node} (hm : model.Templated)
    (x y : Value) :
    let added := b.add model.kind
      { x, y, properties := model.properties.entries, title := some model.title,
        comment := model.comment }
    Duplicated b model x y added.1 added.2 where
  copyOf := hm.copyOf_makeNode _ x y
  x_eq := rfl
  y_eq := rfl
  nodes := congrArg OrderedMap.entries (h.nodes_add _ _)
  new := h.keyed.keys_eq ▸ h.nextId_not_mem_nodes b.idPrefix
  wires := rfl
  unwired _ hw := h.nextId_untouched b.idPrefix hw

/-- Whatever was asked of a new builder, each of its nodes can be duplicated unless a coordinate
cannot be shifted by the offset or its properties have too many levels to be copied; a float can
always be shifted by a float. The copy differs from its model in identifiers and place alone, no
wire leads to or from it, and the rest of the builder is as it was. -/
theorem duplicate_faithful (idPrefix : Text) (edits : List Edit) {id : Text} {model : Node}
    (hmodel : (editAll { idPrefix } edits).2.nodes.get? id = some model) (offset : Value) :
    let b := (editAll { idPrefix } edits).2
    let levels := (Value.record model.properties.entries).depth 1
    (∀ x y, model.x.plus offset = .ok x → model.y.plus offset = .ok y →
      2 * levels ≤ Value.depthLimit →
      ∃ copy b', b.duplicate id offset = .ok (copy, b') ∧ Duplicated b model x y copy b') ∧
    (∀ u v d, model.x = .float u → model.y = .float v → offset = .float d →
      2 * levels ≤ Value.depthLimit →
      ∃ copy b', b.duplicate id offset = .ok (copy, b') ∧
        Duplicated b model (.float (u + d)) (.float (v + d)) copy b') ∧
    ∀ e, b.duplicate id offset = .error e →
      ∃ f, e = .fault f ∧ (model.x.plus offset = .error f ∨ model.y.plus offset = .error f ∨
        f = .copyTooDeep ∧ Value.depthLimit < 2 * levels) := by
  intro b levels
  have haccounts : b.Accounts _ := (Accounts.empty idPrefix).editAll edits
  have htemplated : b.Templated :=
    editAll_preserves Templated.edited (fun _ hn => absurd hn List.not_mem_nil) edits
  have hm : model.Templated := htemplated model (haccounts.mem_values_of_get? hmodel).1
  have hcopied : ∀ x y, model.x.plus offset = .ok x → model.y.plus offset = .ok y →
      2 * levels ≤ Value.depthLimit →
      ∃ copy b', b.duplicate id offset = .ok (copy, b') ∧ Duplicated b model x y copy b' :=
    fun x y hx hy hc => ⟨_, _, duplicate_eq_ok hmodel hx hy hc, haccounts.duplicated_add hm x y⟩
  refine ⟨hcopied, ?_, ?_⟩
  · rintro u v d hu hv rfl
    exact hcopied (.float (u + d)) (.float (v + d)) (by rw [hu]; rfl) (by rw [hv]; rfl)
  · intro e he
    exact fault_of_duplicate hmodel he

end

namespace Offshoots

def edits : List Edit :=
  [.add .setVariable
    { x := .float 100, y := .float 50, title := some ""
      properties := [("scope", .text "level"), ("name", .text "hp")] },
    .duplicate "node_1" (.float 40)]

def model : Node :=
  makeNode .setVariable "node_2"
    { x := .float (100 + 40), y := .float (50 + 40), title := some ""
      properties := [("name", .text "hp"), ("scope", .text "level")] }

theorem get?_model : (editAll {} edits).2.nodes.get? "node_2" = some model := rfl

theorem duplicate_faithful_again :
    (editAll {} edits).2.nodes.get? "node_2" = some model ∧
      ∃ copy b', (editAll {} edits).2.duplicate "node_2" (.float 40) = .ok (copy, b') ∧
        Duplicated (editAll {} edits).2 model (.float (100 + 40 + 40)) (.float (50 + 40 + 40)) copy
          b' :=
  ⟨get?_model,
    (duplicate_faithful "node" edits get?_model (.float 40)).2.1 _ _ _ rfl rfl rfl (by decide)⟩

end Offshoots

namespace Unrepeatable

def distant : List Edit := [.add .branch { x := .float (-1e308), y := .float (-1e308) }]

def deep : List Edit := [.add .branch { properties := [("p", .nest Value.depthLimit)] }]

/-- A node can be refused a copy: the offset is no float, although the sum would be one, or a
property cannot be copied. -/
theorem duplicate_eq_error :
    (editAll {} distant).2.duplicate "node_1" (.int (Int.ofNat (Nat.pow 2 1024))) =
      .error (.fault .integerTooLarge) ∧
    (editAll {} deep).2.duplicate "node_1" = .error (.fault .copyTooDeep) :=
  ⟨Except.eq_error_of_error? (by decide +kernel), Except.eq_error_of_error? (by decide +kernel)⟩

end Unrepeatable

end Builder

end NodeScript
