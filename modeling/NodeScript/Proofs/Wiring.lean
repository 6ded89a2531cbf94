import Mathlib.Data.Fintype.Card
import Mathlib.Data.Set.Finite.Basic
import Mathlib.Logic.Relation
import NodeScript.Evaluation

/-!
Where the inputs of a node get their values from, and which nodes depend on which. A dependency
leads from a node with an operation to one whose data output is wired into a data input of it;
variables and loops have no operation, so that dependencies end there.
-/

namespace NodeScript

def mentionedNodes (nodes : List Node) (wires : List Wire) : Set Text :=
  {a | (∃ n ∈ nodes, n.id = a) ∨ ∃ w ∈ wires, w.fromNode = a ∨ w.toNode = a}

namespace Graph

variable {g : Graph} {m n : Node}

theorem mem_nodes_of_node? {id : Text} (h : g.node? id = some n) : n ∈ g.nodes :=
  List.mem_map.mpr ⟨(id, n), OrderedMap.mem_of_get? h, rfl⟩

theorem id_of_node? {id : Text} (h : g.node? id = some n) : n.id = id :=
  (g.nodeIndex_keyedBy _ (OrderedMap.mem_of_get? h)).symm

theorem id_mem_keys (h : n ∈ g.nodes) : n.id ∈ g.nodeIndex.keys := by
  obtain ⟨e, he, rfl⟩ := List.mem_map.mp h
  exact List.mem_map.mpr ⟨e, he, g.nodeIndex_keyedBy e he⟩

theorem eq_of_id_eq (hm : m ∈ g.nodes) (hn : n ∈ g.nodes) (h : m.id = n.id) : m = n := by
  obtain ⟨d, hd, rfl⟩ := List.mem_map.mp hm
  obtain ⟨e, he, rfl⟩ := List.mem_map.mp hn
  have hk : d.1 = e.1 := by rw [g.nodeIndex_keyedBy d hd, g.nodeIndex_keyedBy e he, h]
  rw [List.inj_on_of_nodup_map g.nodeIndex_nodup hd he hk]

theorem mem_nodes_of_source? {w : Wire} {out : Pin} (h : g.source? w = some (n, out)) :
    n ∈ g.nodes := by
  simp only [source?, Option.bind_eq_bind, Option.bind_eq_some_iff, Option.pure_def,
    Option.some.injEq, Prod.mk.injEq] at h
  obtain ⟨m, hm, p, -, rfl, rfl⟩ := h
  exact mem_nodes_of_node? hm

theorem incoming?_spec {nodeId pinId : Text} {w : Wire} (h : g.incoming? nodeId pinId = some w) :
    w ∈ g.wires ∧ w.target = (nodeId, pinId) := by
  have he := OrderedMap.mem_of_get? h
  rw [g.incoming_eq] at he
  have hk := OrderedMap.keyedBy_firstBy Wire.target g.wires _ he
  exact ⟨OrderedMap.mem_of_mem_firstBy he, hk.symm⟩

theorem targets_eq (g : Graph) (n : Node) :
    g.targets n = fun p =>
      (g.wires.filter (·.source = (n.id, p.id))).filterMap fun w => g.node? w.toNode := by
  funext p
  rw [targets, outgoingFrom, g.outgoing_eq, OrderedMap.getD_get?_groupBy]

section

variable (nodes : List Node) (wires : List Wire)

theorem node?_ofLists (id : Text) :
    (ofLists nodes wires).node? id = nodes.find? (·.id = id) :=
  OrderedMap.get?_firstBy Node.id nodes id

theorem incoming?_ofLists (nodeId pinId : Text) :
    (ofLists nodes wires).incoming? nodeId pinId = wires.find? (·.target = (nodeId, pinId)) :=
  OrderedMap.get?_firstBy Wire.target wires (nodeId, pinId)

theorem follow_ofLists (n : Node) (label : Text) :
    (ofLists nodes wires).follow n label =
      (n.execOutputsLabelled label).flatMap fun p =>
        (wires.filter (·.source = (n.id, p.id))).filterMap fun w =>
          nodes.find? (·.id = w.toNode) := by
  simp only [follow, successors, targets_eq, node?_ofLists]
  rfl

theorem nodes_ofLists {nodes : List Node} (h : (nodes.map Node.id).Nodup) :
    (ofLists nodes wires).nodes = nodes :=
  OrderedMap.values_firstBy h

theorem nodesOfKind_ofLists {nodes : List Node} (h : (nodes.map Node.id).Nodup) (k : NodeKind) :
    (ofLists nodes wires).nodesOfKind k = nodes.filter (·.kind = k) := by
  rw [nodesOfKind, nodes_ofLists wires h]

end

end Graph

namespace Evaluation

/-- Where an input gets its value from: it is fixed, or it is that of an output. -/
inductive Origin
  | value (v : Value)
  | output (source : Node) (out : Pin)

/-- The origin of an input: its fallback if no wire leads to it, no value if the wire leads from
nowhere. -/
def origin (g : Graph) (node : Node) (pin : Pin) : Origin :=
  match g.incoming? node.id pin.id with
  | none => .value (fallback node pin.label)
  | some wire =>
    match g.source? wire with
    | none => .value .null
    | some (source, out) => .output source out

theorem origin_ofLists (nodes : List Node) (wires : List Wire) (node : Node) (pin : Pin) :
    origin (.ofLists nodes wires) node pin =
      match wires.find? (·.target = (node.id, pin.id)) with
      | none => .value (fallback node pin.label)
      | some w =>
        match (nodes.find? (·.id = w.fromNode)).bind fun n =>
          (n.outputs.find? (·.id = w.fromPin)).bind fun p => some (n, p) with
        | none => .value .null
        | some (source, out) => .output source out := by
  rw [origin, Graph.incoming?_ofLists]
  cases wires.find? (·.target = (node.id, pin.id)) with
  | none => rfl
  | some w =>
    dsimp only
    rw [Graph.source?, Graph.node?_ofLists]
    rfl

theorem mem_nodes_of_origin {g : Graph} {node source : Node} {pin out : Pin}
    (h : origin g node pin = .output source out) : source ∈ g.nodes := by
  unfold origin at h
  split at h
  · cases h
  · split at h
    · cases h
    · rename_i hs
      cases h
      exact Graph.mem_nodes_of_source? hs

end Evaluation

namespace Graph

open Evaluation Relation

variable {g : Graph} {m n : Node}

/-- `m` has an operation whose result flows into the operation of `n`. -/
def Feeds (g : Graph) (m n : Node) : Prop :=
  m.kind.operation?.isSome ∧ n.kind.operation?.isSome ∧
    ∃ pin ∈ n.dataInputs, ∃ out, origin g n pin = .output m out ∧ out.isExec = false

/-- No operation depends on its own result. -/
def Acyclic (g : Graph) : Prop := ∀ n, ¬TransGen g.Feeds n n

/-- No node draws at random. -/
def RandomFree (g : Graph) : Prop :=
  ∀ n ∈ g.nodes, n.kind ≠ .randomInteger ∧ n.kind ≠ .randomFloat

theorem Feeds.mem_nodes (h : g.Feeds m n) : m ∈ g.nodes := by
  obtain ⟨-, -, pin, -, out, ho, -⟩ := h
  exact mem_nodes_of_origin ho

theorem mem_nodes_of_reflTransGen (h : ReflTransGen g.Feeds m n) (hn : n ∈ g.nodes) :
    m ∈ g.nodes := by
  rcases h.cases_head with rfl | ⟨k, hk, -⟩
  · exact hn
  · exact hk.mem_nodes

theorem Acyclic.ne_of_reflTransGen (hg : g.Acyclic) {k : Node} (hm : g.Feeds m n)
    (hk : ReflTransGen g.Feeds k m) : k ≠ n := by
  rintro rfl
  exact hg k (TransGen.tail' hk hm)

theorem Acyclic.wellFounded (hg : g.Acyclic) : WellFounded g.Feeds := by
  -- Only finitely many nodes have a dependency, so it is enough that none depends on itself.
  let r : {n // n ∈ g.nodes} → {n // n ∈ g.nodes} → Prop := fun m n => TransGen g.Feeds m n
  have : Finite {n // n ∈ g.nodes} := List.finite_toSet g.nodes
  have : IsTrans _ r := ⟨fun _ _ _ => TransGen.trans⟩
  have : Std.Irrefl r := ⟨fun n => hg n⟩
  have hr : WellFounded r := Finite.wellFounded_of_trans_of_irrefl r
  have hacc : ∀ n : {n // n ∈ g.nodes}, Acc g.Feeds n.1 := by
    intro n
    induction n using hr.induction with
    | _ n ih => exact ⟨_, fun m hm => ih ⟨m, hm.mem_nodes⟩ (TransGen.single hm)⟩
  exact ⟨fun n => ⟨n, fun m hm => hacc ⟨m, hm.mem_nodes⟩⟩⟩

theorem exists_wire_of_origin {pin out : Pin} (h : origin g n pin = .output m out) :
    ∃ w ∈ g.wires, w.toNode = n.id ∧ g.node? w.fromNode = some m := by
  unfold origin at h
  split at h
  · cases h
  · rename_i w hw
    obtain ⟨hmem, ht⟩ := incoming?_spec hw
    split at h
    · cases h
    · rename_i source p hs
      cases h
      simp only [source?, Option.bind_eq_bind, Option.bind_eq_some_iff, Option.pure_def,
        Option.some.injEq, Prod.mk.injEq] at hs
      obtain ⟨k, hk, p, -, rfl, rfl⟩ := hs
      exact ⟨w, hmem, congrArg Prod.fst ht, hk⟩

theorem Feeds.exists_wire (h : g.Feeds m n) :
    ∃ w ∈ g.wires, w.toNode = n.id ∧ g.node? w.fromNode = some m := by
  obtain ⟨-, -, pin, -, out, ho, -⟩ := h
  exact exists_wire_of_origin ho

/-- A graph is acyclic if its nodes can be ranked so that wires from operations lead upward. -/
theorem acyclic_of_rank (rank : Text → Nat)
    (h : ∀ w ∈ g.wires, ((g.node? w.fromNode).any fun m => m.kind.operation?.isSome) = true →
      rank w.fromNode < rank w.toNode) : g.Acyclic := by
  have hstep : ∀ {m n}, g.Feeds m n → rank m.id < rank n.id := by
    intro m n hm
    obtain ⟨w, hw, ht, hf⟩ := hm.exists_wire
    have hlt := h w hw (by rw [hf]; exact hm.1)
    rwa [ht, ← id_of_node? hf] at hlt
  intro n hn
  have hlt : ∀ {k}, TransGen g.Feeds n k → rank n.id < rank k.id := by
    intro k hk
    induction hk with
    | single hk => exact hstep hk
    | tail _ hk ih => exact ih.trans (hstep hk)
  exact lt_irrefl _ (hlt hn)

end Graph

end NodeScript
