import NodeScript.Graph.Builder.InPlace
import NodeScript.Proofs.Building

/-!
Steps of a builder that come to nothing or are taken back. Carried out in place, a connection or a
duplication that is refused leaves the builder as it is, its counter included: whatever can be
refused is looked at before an identifier is drawn. What has been added can be taken away, and then
all is as before, for a new identifier is one that nothing refers to.
-/

namespace NodeScript.Builder

namespace InPlace

variable {α β : Type}

theorem bind_apply (c : Command α) (f : α → Command β) (b : Builder) :
    (c >>= f) b =
      match c b with
      | (.ok a, b') => f a b'
      | (.error e, b') => (.error e, b') := by
  simp only [bind, ExceptT.bind, ExceptT.mk, StateT.bind, ExceptT.bindCont]
  rcases c b with ⟨r, b'⟩
  cases r <;> rfl

/-- All or nothing: a step that is not refused leaves its own builder, and a refusal leaves the
builder that was there. -/
def settle (b : Builder) : Except BuildError (α × Builder) → Except BuildError α × Builder
  | .ok (a, b') => (.ok a, b')
  | .error e => (.error e, b)

theorem eq_of_settle_error {b b' : Builder} {r : Except BuildError (α × Builder)} {e : BuildError}
    (h : settle b r = (.error e, b')) : b' = b := by
  cases r with
  | error e' => exact (congrArg Prod.snd h).symm
  | ok p => cases h

theorem eq_ok_of_settle_ok {b b' : Builder} {r : Except BuildError (α × Builder)} {a : α}
    (h : settle b r = (.ok a, b')) : r = .ok (a, b') := by
  cases r with
  | error e => cases h
  | ok p =>
    cases h
    rfl

theorem pin_apply (id : Text) (direction : Direction) (label : Text) (b : Builder) :
    pin id direction label b = (b.pin id direction label, b) := rfl

theorem add_eq (kind : NodeKind) (options : NodeOptions) (b : Builder) :
    add kind options b = (.ok (b.add kind options).1, (b.add kind options).2) := rfl

theorem connect_eq (source : Node) (sourceLabel : Text) (target : Node) (targetLabel : Text)
    (b : Builder) :
    connect source sourceLabel target targetLabel b =
      settle b (b.connect source sourceLabel target targetLabel) := by
  unfold connect Builder.connect
  rw [bind_apply, pin_apply]
  cases b.pin source.id .output sourceLabel with
  | error e => rfl
  | ok p =>
    dsimp only
    rw [bind_apply, pin_apply]
    cases b.pin target.id .input targetLabel with
    | error e => rfl
    | ok q =>
      -- The wires are looked through before the counter moves.
      change (if !q.isExec && b.wires.any (·.target = (target.id, q.id)) then _ else _ :
          Command Wire) b =
        settle b (if !q.isExec && b.wires.any (·.target = (target.id, q.id)) then _ else _)
      split
      · rfl
      · rfl

theorem duplicate_eq (id : Text) (offset : Value) (b : Builder) :
    duplicate id offset b = settle b (b.duplicate id offset) := by
  unfold duplicate Builder.duplicate
  have hget : (get : Command Builder) b = (.ok b, b) := rfl
  rw [bind_apply, hget]
  dsimp only
  cases b.nodes.get? id with
  | none => rfl
  | some model =>
    dsimp only
    cases model.x.plus offset with
    | error f => rfl
    | ok x =>
      cases model.y.plus offset with
      | error f => rfl
      | ok y => cases copied model.properties <;> rfl

def command : Edit → Command (List Text)
  | .add kind options => do return [(← add kind options).id]
  | .connect source sourceLabel target targetLabel => do
    return [(← connect source sourceLabel target targetLabel).id]
  | .disconnect wireId => do
    disconnect wireId
    return []
  | .remove nodeId => do
    remove nodeId
    return []
  | .duplicate nodeId offset => do return [(← duplicate nodeId offset).id]

/-- Carry out one command after the other, whether they are refused or not, and list the
identifiers that were given out. -/
def session (b : Builder) : List Edit → List Text × Builder
  | [] => ([], b)
  | e :: es =>
    let (result, b) := command e b
    let (others, b) := session b es
    (result.toOption.getD [] ++ others, b)

theorem command_eq_edit (e : Edit) (b : Builder) :
    ((command e b).1.toOption.getD [], (command e b).2) = b.edit e := by
  cases e with
  | add kind options => rfl
  | connect source sourceLabel target targetLabel =>
    rw [command, edit, bind_apply, connect_eq]
    cases b.connect source sourceLabel target targetLabel with
    | error e => rfl
    | ok p => rfl
  | disconnect wireId => rfl
  | remove nodeId => rfl
  | duplicate nodeId offset =>
    rw [command, edit, bind_apply, duplicate_eq]
    cases b.duplicate nodeId offset with
    | error e => rfl
    | ok p => rfl

/-- A builder that is changed in place goes through the same states. -/
theorem session_eq_editAll (edits : List Edit) (b : Builder) :
    session b edits = b.editAll edits := by
  induction edits generalizing b with
  | nil => rfl
  | cons e es ih =>
    rw [session, editAll, ← command_eq_edit e b]
    rcases command e b with ⟨result, b'⟩
    dsimp only
    rw [ih]

end InPlace

section

variable {b b' : Builder} {issued : List Text}

theorem Accounts.disconnect_connect (h : b.Accounts issued) {source target : Node}
    {sourceLabel targetLabel : Text} {w : Wire}
    (hc : b.connect source sourceLabel target targetLabel = .ok (w, b')) :
    b'.disconnect w.id = { b with next := b.next + 1 } := by
  obtain ⟨m, n, p, q, -, -, -, -, -, hw, rfl⟩ := exists_of_connect hc
  have hid : w.id = b.nextId "wire" := congrArg Wire.id hw
  have hkept : ∀ v ∈ b.wires, v.id ≠ w.id := by
    intro v hv he
    exact h.nextId_not_mem_wires "wire" (List.mem_map.mpr ⟨v, hv, he.trans hid⟩)
  simpa [Builder.disconnect, List.filter_append] using hkept

theorem Accounts.remove_add (h : b.Accounts issued) (kind : NodeKind) (options : NodeOptions) :
    (b.add kind options).2.remove (b.add kind options).1.id = { b with next := b.next + 1 } := by
  have hnodes : (b.add kind options).2.nodes.erase (b.add kind options).1.id = b.nodes := by
    refine (OrderedMap.erase_insert_self b.nodes _ _).trans (OrderedMap.erase_of_not_mem ?_)
    exact h.keyed.keys_eq ▸ h.nextId_not_mem_nodes b.idPrefix
  have hwires : b.wires.filter (fun w => decide (w.fromNode ≠ (b.add kind options).1.id ∧
      w.toNode ≠ (b.add kind options).1.id)) = b.wires := by
    rw [List.filter_eq_self]
    intro w hw
    exact decide_eq_true (h.nextId_untouched b.idPrefix hw)
  unfold Builder.remove
  rw [hnodes]
  exact congrArg (fun wires => { b with next := b.next + 1, wires }) hwires

theorem Accounts.remove_duplicate (h : b.Accounts issued) {id : Text} {offset : Value} {n : Node}
    (hd : b.duplicate id offset = .ok (n, b')) :
    b'.remove n.id = { b with next := b.next + 1 } := by
  obtain ⟨model, x, y, -, -, -, hadd⟩ := exists_of_duplicate hd
  cases hadd
  exact h.remove_add model.kind _

theorem disconnect_disconnect (b : Builder) (id : Text) :
    (b.disconnect id).disconnect id = b.disconnect id := by
  simp only [disconnect, List.filter_filter, Bool.and_self]

theorem remove_remove (b : Builder) (id : Text) : (b.remove id).remove id = b.remove id := by
  simp only [remove, OrderedMap.erase_erase_self, List.filter_filter, Bool.and_self]

end

/-- Steps that are refused change nothing, and steps that add something can be taken back, up to the
identifier that they have used up. -/
structure Reversible (b : Builder) : Prop where
  connect_refused : ∀ source sourceLabel target targetLabel e b',
    InPlace.connect source sourceLabel target targetLabel b = (.error e, b') → b' = b
  duplicate_refused : ∀ id offset e b', InPlace.duplicate id offset b = (.error e, b') → b' = b
  disconnect_connect : ∀ source sourceLabel target targetLabel w b',
    InPlace.connect source sourceLabel target targetLabel b = (.ok w, b') →
      b'.disconnect w.id = { b with next := b.next + 1 }
  remove_add : ∀ kind options, ∃ n b', InPlace.add kind options b = (.ok n, b') ∧
    b'.remove n.id = { b with next := b.next + 1 }
  remove_duplicate : ∀ id offset n b', InPlace.duplicate id offset b = (.ok n, b') →
    b'.remove n.id = { b with next := b.next + 1 }
  disconnect_idem : ∀ id, (b.disconnect id).disconnect id = b.disconnect id
  remove_idem : ∀ id, (b.remove id).remove id = b.remove id
  remove_wires : ∀ id, (b.remove id).wires.Sublist b.wires ∧
    ∀ w, w ∈ (b.remove id).wires ↔ w ∈ b.wires ∧ w.fromNode ≠ id ∧ w.toNode ≠ id

/-- Whatever has been asked of a builder, in place and also in vain. -/
theorem reversible_session (idPrefix : Text) (edits : List Edit) :
    Reversible (InPlace.session { idPrefix } edits).2 := by
  rw [InPlace.session_eq_editAll]
  have h := (Accounts.empty idPrefix).editAll edits
  constructor
  case connect_refused =>
    intro source sourceLabel target targetLabel e b' hc
    rw [InPlace.connect_eq] at hc
    exact InPlace.eq_of_settle_error hc
  case duplicate_refused =>
    intro id offset e b' hd
    rw [InPlace.duplicate_eq] at hd
    exact InPlace.eq_of_settle_error hd
  case disconnect_connect =>
    intro source sourceLabel target targetLabel w b' hc
    rw [InPlace.connect_eq] at hc
    exact h.disconnect_connect (InPlace.eq_ok_of_settle_ok hc)
  case remove_add =>
    intro kind options
    exact ⟨_, _, InPlace.add_eq kind options _, h.remove_add kind options⟩
  case remove_duplicate =>
    intro id offset n b' hd
    rw [InPlace.duplicate_eq] at hd
    exact h.remove_duplicate (InPlace.eq_ok_of_settle_ok hd)
  case disconnect_idem => exact disconnect_disconnect _
  case remove_idem => exact remove_remove _
  case remove_wires =>
    intro id
    refine ⟨List.filter_sublist, fun w => ?_⟩
    rw [remove, List.mem_filter, decide_eq_true_iff]

-- The second wire is refused and uses up no identifier; that of the first one is not issued again.
example :
    let a := makeNode .integerLiteral "node_1" {}
    let b := makeNode .absoluteInteger "node_2" {}
    (InPlace.session {}
      [.add .integerLiteral {}, .add .absoluteInteger {}, .connect a "Value" b "Value",
        .connect a "Value" b "Value", .disconnect "wire_3", .connect a "Value" b "Value"]).1 =
      ["node_1", "node_2", "wire_3", "wire_4"] := by
  decide +kernel

end NodeScript.Builder
