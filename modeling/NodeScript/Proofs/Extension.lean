import NodeScript.Proofs.Correspondence
import NodeScript.Proofs.Reads

/-!
Additions that are not connected. Nodes and wires that are added at the end of a graph are never
reached, as long as the new wires come from new nodes and lead to new nodes or to inputs that are
wired already: the first node with an identifier, the first wire into an input and the first entry
node are those that count.
-/

namespace NodeScript

open Relator Evaluation

theorem find?_append_eq {α : Type} {p : α → Bool} {as bs : List α}
    (h : ∀ b ∈ bs, p b → ∃ a ∈ as, p a) : (as ++ bs).find? p = as.find? p := by
  rw [List.find?_append]
  cases hfind : as.find? p with
  | some a => rfl
  | none =>
    rw [List.find?_eq_none] at hfind
    rw [Option.none_or, List.find?_eq_none]
    intro b hb hp
    obtain ⟨a, ha, hpa⟩ := h b hb hp
    exact hfind a ha hpa

/-- Nodes and wires that can be added without being reached. -/
structure Inert (nodes : List Node) (wires : List Wire) (extraNodes : List Node)
    (extraWires : List Wire) : Prop where
  node : ∀ n ∈ extraNodes, (∃ m ∈ nodes, m.id = n.id) ∨ n.id ∉ mentionedNodes nodes wires
  source : ∀ w ∈ extraWires, w.fromNode ∉ mentionedNodes nodes wires
  target : ∀ w ∈ extraWires,
    w.toNode ∉ mentionedNodes nodes wires ∨ ∃ v ∈ wires, v.target = w.target

namespace Inert

variable {nodes extraNodes : List Node} {wires extraWires : List Wire} {n : Node} {a : Text}

theorem node?_eq (h : Inert nodes wires extraNodes extraWires)
    (ha : a ∈ mentionedNodes nodes wires) :
    (Graph.ofLists (nodes ++ extraNodes) (wires ++ extraWires)).node? a =
      (Graph.ofLists nodes wires).node? a := by
  unfold Graph.node? Graph.ofLists
  rw [OrderedMap.get?_firstBy, OrderedMap.get?_firstBy]
  apply find?_append_eq
  intro n hn hid
  rw [decide_eq_true_eq] at hid
  subst hid
  obtain ⟨m, hm, hid⟩ | hfresh := h.node n hn
  · exact ⟨m, hm, decide_eq_true hid⟩
  · exact absurd ha hfresh

theorem incoming?_eq (h : Inert nodes wires extraNodes extraWires) (hn : n ∈ nodes) (b : Text) :
    (Graph.ofLists (nodes ++ extraNodes) (wires ++ extraWires)).incoming? n.id b =
      (Graph.ofLists nodes wires).incoming? n.id b := by
  unfold Graph.incoming? Graph.ofLists
  rw [OrderedMap.get?_firstBy, OrderedMap.get?_firstBy]
  apply find?_append_eq
  intro w hw htarget
  rw [decide_eq_true_eq] at htarget
  obtain hfresh | ⟨v, hv, hvw⟩ := h.target w hw
  · have hid : w.toNode = n.id := congrArg Prod.fst htarget
    exact absurd (.inl ⟨n, hn, hid.symm⟩) hfresh
  · exact ⟨v, hv, decide_eq_true (hvw.trans htarget)⟩

theorem outgoingFrom_eq (h : Inert nodes wires extraNodes extraWires) (hn : n ∈ nodes) (b : Text) :
    (Graph.ofLists (nodes ++ extraNodes) (wires ++ extraWires)).outgoingFrom n.id b =
      (Graph.ofLists nodes wires).outgoingFrom n.id b := by
  unfold Graph.outgoingFrom Graph.ofLists
  rw [OrderedMap.getD_get?_groupBy, OrderedMap.getD_get?_groupBy, List.filter_append]
  have hnone : extraWires.filter (·.source = (n.id, b)) = [] := by
    rw [List.filter_eq_nil_iff]
    intro w hw hsource
    rw [decide_eq_true_eq] at hsource
    have hid : w.fromNode = n.id := congrArg Prod.fst hsource
    exact h.source w hw (.inl ⟨n, hn, hid.symm⟩)
  rw [hnone, List.append_nil]

theorem source?_eq (h : Inert nodes wires extraNodes extraWires) {w : Wire} (hw : w ∈ wires) :
    (Graph.ofLists (nodes ++ extraNodes) (wires ++ extraWires)).source? w =
      (Graph.ofLists nodes wires).source? w := by
  rw [Graph.source?, Graph.source?, h.node?_eq (.inr ⟨w, hw, .inl rfl⟩)]

theorem origin_eq (h : Inert nodes wires extraNodes extraWires) (hn : n ∈ nodes) (p : Pin) :
    origin (Graph.ofLists (nodes ++ extraNodes) (wires ++ extraWires)) n p =
      origin (Graph.ofLists nodes wires) n p := by
  unfold origin
  rw [h.incoming?_eq hn]
  cases hw : (Graph.ofLists nodes wires).incoming? n.id p.id with
  | none => rfl
  | some w =>
    dsimp only
    rw [h.source?_eq (Graph.incoming?_spec hw).1]

theorem targets_eq (h : Inert nodes wires extraNodes extraWires) (hn : n ∈ nodes) (p : Pin) :
    (Graph.ofLists (nodes ++ extraNodes) (wires ++ extraWires)).targets n p =
      (Graph.ofLists nodes wires).targets n p := by
  unfold Graph.targets
  rw [h.outgoingFrom_eq hn]
  refine List.filterMap_congr fun w hw => ?_
  have hmem : w ∈ wires := by
    unfold Graph.outgoingFrom Graph.ofLists at hw
    rw [OrderedMap.getD_get?_groupBy] at hw
    exact List.mem_of_mem_filter hw
  exact h.node?_eq (.inr ⟨w, hmem, .inr rfl⟩)

theorem prefix_nodes (nodes extraNodes : List Node) (wires extraWires : List Wire) :
    (Graph.ofLists nodes wires).nodes <+:
      (Graph.ofLists (nodes ++ extraNodes) (wires ++ extraWires)).nodes :=
  OrderedMap.prefix_values_firstBy Node.id nodes extraNodes

theorem head?_nodesOfKind_eq (extraNodes : List Node) (extraWires : List Wire)
    (he : (Graph.ofLists nodes wires).nodesOfKind .beginPlay ≠ []) :
    ((Graph.ofLists (nodes ++ extraNodes) (wires ++ extraWires)).nodesOfKind .beginPlay).head? =
      ((Graph.ofLists nodes wires).nodesOfKind .beginPlay).head? := by
  obtain ⟨others, hothers⟩ :=
    (prefix_nodes nodes extraNodes wires extraWires).filter (·.kind = .beginPlay)
  rw [Graph.nodesOfKind, ← hothers]
  exact List.head?_append_of_ne_nil _ he

def correspondence (h : Inert nodes wires extraNodes extraWires)
    (he : (Graph.ofLists nodes wires).nodesOfKind .beginPlay ≠ []) :
    Correspondence (Graph.ofLists nodes wires)
      (Graph.ofLists (nodes ++ extraNodes) (wires ++ extraWires)) where
  node n n' := n ∈ (Graph.ofLists nodes wires).nodes ∧ n' = n
  id := Eq
  key := Eq
  id_unique := ⟨fun _ _ _ h h' => h.trans h'.symm, fun _ _ _ h h' => h.symm.trans h'⟩
  key_unique := ⟨fun _ _ _ h h' => h.trans h'.symm, fun _ _ _ h h' => h.symm.trans h'⟩
  id_of_node hn := by rw [hn.2]
  mem hn := hn.1
  mem' hn := by
    rw [hn.2]
    exact (prefix_nodes nodes extraNodes wires extraWires).subset hn.1
  kind hn := by rw [hn.2]
  title hn := by rw [hn.2]
  properties hn := by rw [hn.2]
  inputs {n n'} hn := by
    obtain ⟨hmem, rfl⟩ := hn
    refine List.forall₂_same.mpr fun p _ => ⟨rfl, rfl, ?_⟩
    rw [h.origin_eq (Graph.mem_of_mem_nodes_ofLists hmem)]
    cases ho : origin (Graph.ofLists nodes wires) n' p with
    | value v => exact .value v
    | output m q => exact .output ⟨⟨mem_nodes_of_origin ho, rfl⟩, rfl, rfl⟩
  outputs {n n'} hn := by
    obtain ⟨hmem, rfl⟩ := hn
    refine List.forall₂_same.mpr fun p _ => ⟨rfl, rfl, ?_⟩
    rw [h.targets_eq (Graph.mem_of_mem_nodes_ofLists hmem)]
    refine List.forall₂_same.mpr fun m hm => ⟨?_, rfl⟩
    obtain ⟨w, -, hw⟩ := List.mem_filterMap.mp hm
    exact Graph.mem_nodes_of_node? hw
  entry := by
    rw [head?_nodesOfKind_eq extraNodes extraWires he]
    cases hentry : ((Graph.ofLists nodes wires).nodesOfKind .beginPlay).head? with
    | none => exact .none
    | some entry => exact .some ⟨List.mem_of_mem_filter (List.mem_of_mem_head? hentry), rfl⟩

end Inert

namespace Run

/-- Unconnected additions do not change the outcome of a run, whatever generators without a seed are
given. -/
theorem run_extended {nodes extraNodes : List Node} {wires extraWires : List Wire}
    (h : Inert nodes wires extraNodes extraWires)
    (he : (Graph.ofLists nodes wires).nodesOfKind .beginPlay ≠ []) (memo : Bool)
    (maxSteps maxLoopIterations : Value) (seed : Int) (entropy : Entropy) :
    ∃ x x',
      run ⟨.ofLists nodes wires, ⟨maxSteps, maxLoopIterations, .int seed, entropy⟩, memo⟩ = .ok x ∧
      run ⟨.ofLists (nodes ++ extraNodes) (wires ++ extraWires),
        ⟨maxSteps, maxLoopIterations, .int seed, entropy⟩, memo⟩ = .ok x' ∧
      x.Same x' :=
  (h.correspondence he).same_run memo maxSteps maxLoopIterations seed entropy

namespace Appendix

open Sample

def random : Node :=
  { id := "random"
    kind := .randomInteger
    outputs := [⟨"value", "random", "Value", .integer, .output⟩] }

def nodes : List Node := [entry, print "print"]

def wires : List Wire :=
  [⟨"1", "entry", "then", "print", "in", .exec⟩, ⟨"2", "nowhere", "value", "print", "text", .any⟩]

def extraNodes : List Node := [{ entry with id := "second" }, random, { entry with id := "print" }]

def extraWires : List Wire :=
  [⟨"3", "second", "then", "random", "in", .exec⟩, ⟨"4", "random", "value", "print", "text", .any⟩]

theorem inert : Inert nodes wires extraNodes extraWires := by
  constructor
  all_goals
    unfold mentionedNodes
    decide

def config : Config := { seed := .int 7 }

theorem run_extended_appendix :
    Inert nodes wires extraNodes extraWires ∧
      (Graph.ofLists nodes wires).nodesOfKind .beginPlay ≠ [] ∧
      (Graph.ofLists (nodes ++ extraNodes) (wires ++ extraWires)).size = 4 ∧
      ∃ x x', run ⟨.ofLists nodes wires, config, true⟩ = .ok x ∧
        run ⟨.ofLists (nodes ++ extraNodes) (wires ++ extraWires), config, true⟩ = .ok x' ∧
        x.Same x' ∧
        x'.lines.toOption = some (["", "---", Variables.noneLine] : List Text) := by
  have hentry : (Graph.ofLists nodes wires).nodesOfKind .beginPlay ≠ [] := nofun
  refine ⟨inert, hentry, by decide, ?_⟩
  obtain ⟨x, x', hx, hx', hsame⟩ := run_extended inert hentry true (.int 1000) (.int 1000) 7 _
  refine ⟨x, x', hx, hx', hsame, ?_⟩
  rw [hsame.lines, ← Except.ok.inj hx]
  decide +kernel

end Appendix

end Run

end NodeScript
