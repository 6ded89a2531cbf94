import Mathlib.Data.Set.Function
import Mathlib.Logic.Equiv.Basic
import NodeScript.Proofs.Correspondence
import NodeScript.Proofs.Reads

/-!
Names and layout. Identifiers matter only in that some are the same and some are not: if nodes and
pins are renamed so that different ones stay different, the outcome of a run stays. Where a node
stands, its comment, the identifiers and types of wires, and the owners and directions of pins have
no part in a run.
-/

namespace NodeScript

open Relator Evaluation

/-- New identifiers for nodes, and for the pins of each node. -/
structure Renaming where
  node : Text → Text
  pin : Text → Text → Text

namespace Renaming

def key (r : Renaming) (k : PinKey) : PinKey := (r.node k.1, r.pin k.1 k.2)

structure OfPin (r : Renaming) (owner : Text) (p p' : Pin) : Prop where
  id : p'.id = r.pin owner p.id
  label : p'.label = p.label
  type : p'.type = p.type

structure OfNode (r : Renaming) (n n' : Node) : Prop where
  id : n'.id = r.node n.id
  kind : n'.kind = n.kind
  title : n'.title = n.title
  properties : n'.properties = n.properties
  inputs : List.Forall₂ (r.OfPin n.id) n.inputs n'.inputs
  outputs : List.Forall₂ (r.OfPin n.id) n.outputs n'.outputs

structure OfWire (r : Renaming) (w w' : Wire) : Prop where
  source : w'.source = r.key w.source
  target : w'.target = r.key w.target

theorem OfNode.key_eq {r : Renaming} {n n' : Node} {p p' : Pin} (hn : r.OfNode n n')
    (hp : r.OfPin n.id p p') : (n'.id, p'.id) = r.key (n.id, p.id) := by
  rw [key, hn.id, hp.id]

end Renaming

def mentionedPins (nodes : List Node) (wires : List Wire) (a : Text) : Set Text :=
  {b | (∃ n ∈ nodes, n.id = a ∧ ∃ p ∈ n.inputs ++ n.outputs, p.id = b) ∨
    ∃ w ∈ wires, w.source = (a, b) ∨ w.target = (a, b)}

/-- The second nodes and wires are the first with new identifiers, different ones for different
ones. -/
structure Renames (r : Renaming) (nodes : List Node) (wires : List Wire) (nodes' : List Node)
    (wires' : List Wire) : Prop where
  ofNodes : List.Forall₂ r.OfNode nodes nodes'
  ofWires : List.Forall₂ r.OfWire wires wires'
  injOn_node : Set.InjOn r.node (mentionedNodes nodes wires)
  injOn_pin : ∀ a, Set.InjOn (r.pin a) (mentionedPins nodes wires a)

theorem biUnique_of_injOn {α β : Type} {f : α → β} {s : Set α} (h : Set.InjOn f s) :
    BiUnique fun a b => a ∈ s ∧ b = f a := by
  constructor
  · rintro a b c ⟨ha, rfl⟩ ⟨hb, hab⟩
    exact h ha hb hab
  · rintro a b c ⟨-, rfl⟩ ⟨-, rfl⟩
    rfl

namespace Renames

variable {r : Renaming} {nodes nodes' : List Node} {wires wires' : List Wire} {n n' : Node}
  {w w' : Wire} {p p' : Pin} {a : Text}

def mentionedKeys (nodes : List Node) (wires : List Wire) : Set PinKey :=
  {k | k.1 ∈ mentionedNodes nodes wires ∧ k.2 ∈ mentionedPins nodes wires k.1}

theorem injOn_key (h : Renames r nodes wires nodes' wires') :
    Set.InjOn r.key (mentionedKeys nodes wires) := by
  rintro ⟨a, b⟩ ⟨ha, hb⟩ ⟨c, d⟩ ⟨hc, hd⟩ he
  obtain ⟨hnode, hpin⟩ := Prod.mk.inj he
  obtain rfl : a = c := h.injOn_node ha hc hnode
  obtain rfl : b = d := h.injOn_pin a hb hd hpin
  rfl

theorem source_mem (hw : w ∈ wires) : w.source ∈ mentionedKeys nodes wires :=
  ⟨.inr ⟨w, hw, .inl rfl⟩, .inr ⟨w, hw, .inl rfl⟩⟩

theorem target_mem (hw : w ∈ wires) : w.target ∈ mentionedKeys nodes wires :=
  ⟨.inr ⟨w, hw, .inr rfl⟩, .inr ⟨w, hw, .inr rfl⟩⟩

theorem pin_mem (hn : n ∈ nodes) (hp : p ∈ n.inputs ++ n.outputs) :
    (n.id, p.id) ∈ mentionedKeys nodes wires :=
  ⟨.inl ⟨n, hn, rfl⟩, .inl ⟨n, hn, rfl, p, hp, rfl⟩⟩

theorem rel_nodeIndex (h : Renames r nodes wires nodes' wires') :
    OrderedMap.Rel (fun a a' => a ∈ mentionedNodes nodes wires ∧ a' = r.node a) r.OfNode
      (Graph.ofLists nodes wires).nodeIndex (Graph.ofLists nodes' wires').nodeIndex := by
  have hrel := OrderedMap.rel_firstBy (biUnique_of_injOn h.injOn_node)
    (fun n n' hn => ⟨.inl ⟨n, hn.1, rfl⟩, hn.2.id⟩) (forall₂_mem h.ofNodes)
  exact List.Forall₂.imp (fun _ _ he => ⟨he.1, he.2.2⟩) hrel

theorem rel_incoming (h : Renames r nodes wires nodes' wires') {k : PinKey}
    (hk : k ∈ mentionedKeys nodes wires) :
    Option.Rel (fun w w' => w ∈ wires ∧ r.OfWire w w')
      ((Graph.ofLists nodes wires).incoming.get? k)
      ((Graph.ofLists nodes' wires').incoming.get? (r.key k)) := by
  have hrel := OrderedMap.rel_firstBy (biUnique_of_injOn h.injOn_key)
    (fun w w' hw => ⟨target_mem hw.1, hw.2.target⟩) (forall₂_mem h.ofWires)
  exact hrel.get? (biUnique_of_injOn h.injOn_key) ⟨hk, rfl⟩

theorem rel_outgoing (h : Renames r nodes wires nodes' wires') {k : PinKey}
    (hk : k ∈ mentionedKeys nodes wires) :
    Option.Rel (List.Forall₂ fun w w' => w ∈ wires ∧ r.OfWire w w')
      ((Graph.ofLists nodes wires).outgoing.get? k)
      ((Graph.ofLists nodes' wires').outgoing.get? (r.key k)) := by
  have hrel := OrderedMap.rel_groupBy (biUnique_of_injOn h.injOn_key)
    (fun w w' hw => ⟨source_mem hw.1, hw.2.source⟩) (forall₂_mem h.ofWires)
  exact hrel.get? (biUnique_of_injOn h.injOn_key) ⟨hk, rfl⟩

structure Counterparts (r : Renaming) (nodes : List Node) (wires : List Wire) (nodes' : List Node)
    (wires' : List Wire) (n n' : Node) : Prop where
  mem : n ∈ (Graph.ofLists nodes wires).nodes
  mem' : n' ∈ (Graph.ofLists nodes' wires').nodes
  ofNode : r.OfNode n n'

theorem counterparts_node? (h : Renames r nodes wires nodes' wires')
    (ha : a ∈ mentionedNodes nodes wires) :
    Option.Rel (Counterparts r nodes wires nodes' wires')
      ((Graph.ofLists nodes wires).node? a) ((Graph.ofLists nodes' wires').node? (r.node a)) := by
  refine rel_imp (h.rel_nodeIndex.get? (biUnique_of_injOn h.injOn_node) ⟨ha, rfl⟩) ?_
  intro n n' hn hn' ho
  exact ⟨Graph.mem_nodes_of_node? hn, Graph.mem_nodes_of_node? hn', ho⟩

theorem rel_find?_outputs (h : Renames r nodes wires nodes' wires') (hn : n ∈ nodes)
    (ho : r.OfNode n n') {b : Text} (hb : b ∈ mentionedPins nodes wires n.id) :
    Option.Rel (fun p p' => p ∈ n.outputs ∧ r.OfPin n.id p p') (n.outputs.find? (·.id = b))
      (n'.outputs.find? (·.id = r.pin n.id b)) := by
  refine rel_find? (fun p p' hp => ?_) (forall₂_mem ho.outputs)
  have hmem : p.id ∈ mentionedPins nodes wires n.id :=
    (pin_mem hn (List.mem_append_right n.inputs hp.1)).2
  rw [hp.2.id, decide_eq_decide]
  exact (h.injOn_pin n.id).eq_iff hmem hb

theorem rel_source? (h : Renames r nodes wires nodes' wires') (hw : w ∈ wires)
    (ho : r.OfWire w w') :
    Option.Rel (fun x x' => Counterparts r nodes wires nodes' wires' x.1 x'.1 ∧
        x.2 ∈ x.1.outputs ∧ r.OfPin x.1.id x.2 x'.2)
      ((Graph.ofLists nodes wires).source? w) ((Graph.ofLists nodes' wires').source? w') := by
  obtain ⟨hfrom, hpin⟩ := Prod.mk.inj ho.source
  change w'.fromNode = r.node w.fromNode at hfrom
  change w'.fromPin = r.pin w.fromNode w.fromPin at hpin
  rw [Graph.source?, Graph.source?, hfrom, hpin]
  refine rel_bind (h.counterparts_node? (source_mem hw).1) fun n n' hn _ hc => ?_
  have hid : n.id = w.fromNode := Graph.id_of_node? hn
  have hfind := h.rel_find?_outputs (Graph.mem_of_mem_nodes_ofLists hc.mem) hc.ofNode
    (b := w.fromPin) (hid ▸ (source_mem hw).2)
  rw [hid] at hfind
  refine rel_bind hfind fun p p' _ _ hp => ?_
  exact .some ⟨hc, hp.1, hid ▸ hp.2⟩

theorem alike_origin (h : Renames r nodes wires nodes' wires')
    (hc : Counterparts r nodes wires nodes' wires' n n') (hp : p ∈ n.inputs)
    (ho : r.OfPin n.id p p') :
    OriginAlike (Counterparts r nodes wires nodes' wires')
      (fun k k' => k ∈ mentionedKeys nodes wires ∧ k' = r.key k)
      (origin (Graph.ofLists nodes wires) n p) (origin (Graph.ofLists nodes' wires') n' p') := by
  have hn := Graph.mem_of_mem_nodes_ofLists hc.mem
  have hincoming := h.rel_incoming (pin_mem hn (List.mem_append_left n.outputs hp))
  rw [← hc.ofNode.key_eq ho] at hincoming
  unfold origin Graph.incoming?
  generalize (Graph.ofLists nodes wires).incoming.get? (n.id, p.id) = o at hincoming ⊢
  generalize (Graph.ofLists nodes' wires').incoming.get? (n'.id, p'.id) = o' at hincoming ⊢
  cases hincoming with
  | none =>
    have hfallback : fallback n' p'.label = fallback n p.label := by
      rw [fallback, fallback, hc.ofNode.kind, hc.ofNode.properties, ho.label]
    dsimp only
    rw [hfallback]
    exact .value _
  | @some w w' hw =>
    have hsource := h.rel_source? hw.1 hw.2
    dsimp only
    generalize (Graph.ofLists nodes wires).source? w = o at hsource ⊢
    generalize (Graph.ofLists nodes' wires').source? w' = o' at hsource ⊢
    cases hsource with
    | none => exact .value .null
    | @some x x' hx =>
      obtain ⟨hm, hmem, hq⟩ := hx
      have hm' := Graph.mem_of_mem_nodes_ofLists hm.mem
      have hkey : (x.1.id, x.2.id) ∈ mentionedKeys nodes wires :=
        pin_mem hm' (List.mem_append_right _ hmem)
      exact .output ⟨hm, ⟨hkey, hm.ofNode.key_eq hq⟩, hq.type⟩

theorem forall₂_targets (h : Renames r nodes wires nodes' wires')
    (hc : Counterparts r nodes wires nodes' wires' n n') (hp : p ∈ n.outputs)
    (ho : r.OfPin n.id p p') :
    List.Forall₂ (Counterparts r nodes wires nodes' wires')
      ((Graph.ofLists nodes wires).targets n p) ((Graph.ofLists nodes' wires').targets n' p') := by
  have hn := Graph.mem_of_mem_nodes_ofLists hc.mem
  have houtgoing := h.rel_outgoing (pin_mem hn (List.mem_append_right n.inputs hp))
  rw [← hc.ofNode.key_eq ho] at houtgoing
  unfold Graph.targets Graph.outgoingFrom
  generalize (Graph.ofLists nodes wires).outgoing.get? (n.id, p.id) = o at houtgoing ⊢
  generalize (Graph.ofLists nodes' wires').outgoing.get? (n'.id, p'.id) = o' at houtgoing ⊢
  cases houtgoing with
  | none => exact .nil
  | some hws =>
    refine List.rel_filterMap (fun w w' hw => ?_) hws
    have hto : w'.toNode = r.node w.toNode := congrArg Prod.fst hw.2.target
    rw [hto]
    exact h.counterparts_node? (target_mem hw.1).1

theorem forall₂_nodes (h : Renames r nodes wires nodes' wires') :
    List.Forall₂ (Counterparts r nodes wires nodes' wires') (Graph.ofLists nodes wires).nodes
      (Graph.ofLists nodes' wires').nodes := by
  obtain ⟨hlength, hzip⟩ := List.forall₂_iff_zip.mp h.rel_nodeIndex.values
  refine List.forall₂_iff_zip.mpr ⟨hlength, fun hn => ?_⟩
  obtain ⟨hmem, hmem'⟩ := List.of_mem_zip hn
  exact ⟨hmem, hmem', hzip hn⟩

theorem rel_entry (h : Renames r nodes wires nodes' wires') :
    Option.Rel (Counterparts r nodes wires nodes' wires')
      ((Graph.ofLists nodes wires).nodesOfKind .beginPlay).head?
      ((Graph.ofLists nodes' wires').nodesOfKind .beginPlay).head? := by
  rw [Graph.nodesOfKind, Graph.nodesOfKind, List.head?_filter, List.head?_filter]
  exact rel_find? (fun n n' hc => by rw [hc.ofNode.kind]) h.forall₂_nodes

def correspondence (h : Renames r nodes wires nodes' wires') :
    Correspondence (Graph.ofLists nodes wires) (Graph.ofLists nodes' wires') where
  node := Counterparts r nodes wires nodes' wires'
  id a a' := a ∈ mentionedNodes nodes wires ∧ a' = r.node a
  key k k' := k ∈ mentionedKeys nodes wires ∧ k' = r.key k
  id_unique := biUnique_of_injOn h.injOn_node
  key_unique := biUnique_of_injOn h.injOn_key
  id_of_node {n _} hc :=
    ⟨.inl ⟨n, Graph.mem_of_mem_nodes_ofLists hc.mem, rfl⟩, hc.ofNode.id⟩
  mem hc := hc.mem
  mem' hc := hc.mem'
  kind hc := hc.ofNode.kind
  title hc := hc.ofNode.title
  properties hc := hc.ofNode.properties
  inputs hc := (forall₂_mem hc.ofNode.inputs).imp fun _ _ hp =>
    ⟨hp.2.label, hp.2.type, h.alike_origin hc hp.1 hp.2⟩
  outputs hc := (forall₂_mem hc.ofNode.outputs).imp fun _ _ hp =>
    ⟨hp.2.label, hp.2.type, h.forall₂_targets hc hp.1 hp.2⟩
  entry := h.rel_entry

end Renames

namespace Run

/-- Renamed and laid out anew, a graph is run with the same outcome, if generators without a seed
are given the same. -/
theorem run_renamed {r : Renaming} {nodes nodes' : List Node} {wires wires' : List Wire}
    (h : Renames r nodes wires nodes' wires') (memo : Bool) (maxSteps maxLoopIterations : Value)
    (seed : Int) (entropy : Entropy) :
    ∃ x x',
      run ⟨.ofLists nodes wires, ⟨maxSteps, maxLoopIterations, .int seed, entropy⟩, memo⟩ = .ok x ∧
      run ⟨.ofLists nodes' wires', ⟨maxSteps, maxLoopIterations, .int seed, entropy⟩, memo⟩ =
        .ok x' ∧
      x.Same x' :=
  h.correspondence.same_run memo maxSteps maxLoopIterations seed entropy

namespace Swapped

open Sample

def loop : Node :=
  { id := "loop"
    kind := .forLoop
    outputs := [⟨"body", "loop", "Loop Body", .exec, .output⟩,
      ⟨"index", "loop", "Index", .integer, .output⟩]
    properties := ⟨[("start", .int 1), ("end", .int 2)]⟩ }

def nodes : List Node := [entry, loop, print "print"]

def wires : List Wire :=
  [⟨"1", "entry", "then", "loop", "in", .exec⟩, ⟨"2", "loop", "body", "print", "in", .exec⟩,
    ⟨"3", "loop", "index", "print", "text", .integer⟩]

def swap : Renaming :=
  ⟨Equiv.swap ("entry" : Text) "loop", fun _ => Equiv.swap ("then" : Text) "index"⟩

def movedPin (owner : Text) (p : Pin) : Pin :=
  { p with id := swap.pin owner p.id, nodeId := "", direction := .input }

def moved (n : Node) : Node :=
  { n with
    id := swap.node n.id
    inputs := n.inputs.map (movedPin n.id)
    outputs := n.outputs.map (movedPin n.id)
    x := .int 40
    comment := "moved" }

def movedWire (w : Wire) : Wire :=
  ⟨"", swap.node w.fromNode, swap.pin w.fromNode w.fromPin, swap.node w.toNode,
    swap.pin w.toNode w.toPin, .any⟩

theorem renames : Renames swap nodes wires (nodes.map moved) (wires.map movedWire) where
  ofNodes := by
    rw [List.forall₂_map_right_iff, List.forall₂_same]
    intro n _
    have hpins (ps : List Pin) :
        List.Forall₂ (swap.OfPin n.id) ps (ps.map (movedPin n.id)) := by
      rw [List.forall₂_map_right_iff, List.forall₂_same]
      exact fun p _ => ⟨rfl, rfl, rfl⟩
    exact ⟨rfl, rfl, rfl, rfl, hpins n.inputs, hpins n.outputs⟩
  ofWires := by
    rw [List.forall₂_map_right_iff, List.forall₂_same]
    exact fun w _ => ⟨rfl, rfl⟩
  injOn_node := (Equiv.swap _ _).injective.injOn
  injOn_pin _ := (Equiv.swap _ _).injective.injOn

def config : Config := { seed := .int 7 }

theorem run_renamed_swapped :
    Renames swap nodes wires (nodes.map moved) (wires.map movedWire) ∧
      (nodes.map moved).map (·.id) = ["loop", "entry", "print"] ∧
      ∃ x x', run ⟨.ofLists nodes wires, config, true⟩ = .ok x ∧
        run ⟨.ofLists (nodes.map moved) (wires.map movedWire), config, true⟩ = .ok x' ∧
        x.Same x' ∧
        x'.lines.toOption = some (["1", "2", "---", Variables.noneLine] : List Text) := by
  refine ⟨renames, by decide, ?_⟩
  obtain ⟨x, x', hx, hx', hsame⟩ := run_renamed renames true (.int 1000) (.int 1000) 7 _
  refine ⟨x, x', hx, hx', hsame, ?_⟩
  rw [hsame.lines, ← Except.ok.inj hx]
  decide +kernel

end Swapped

end Run

end NodeScript
