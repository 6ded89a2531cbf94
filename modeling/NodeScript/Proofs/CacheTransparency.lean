import NodeScript.Proofs.Lockstep
import NodeScript.Proofs.Reads
import NodeScript.Proofs.Warnings

/-!
Runs that use results again, and runs that do not. Where no index of a loop flows into an operation,
a result that is used again is the value that would be found, so that both runs do the same step by
step; only some warnings are not repeated.
-/

namespace NodeScript

open Evaluation

/-- No index of a loop flows into an operation. -/
def Graph.Uncounted (g : Graph) : Prop := ∀ n, g.Operates n → ∀ f, ¬g.Counts f n

theorem Graph.uncounted_of_wires {g : Graph}
    (h : ∀ w ∈ g.wires, ∀ f ∈ g.nodes, ∀ n ∈ g.nodes, w.fromNode = f.id → w.toNode = n.id →
      f.kind = .forLoop → n.kind.operation?.isSome = false) : g.Uncounted := by
  rintro n ⟨hn, hk⟩ f ⟨hf, pin, -, out, ho, -⟩
  obtain ⟨w, hw, ht, hs⟩ := Graph.exists_wire_of_origin ho
  have hnone := h w hw f (mem_nodes_of_origin ho) n hn (Graph.id_of_node? hs).symm ht hf
  rw [hk] at hnone
  cases hnone

theorem Graph.Uncounted.not_dependsOnLoop {g : Graph} (hu : g.Uncounted) {m : Node}
    (hm : g.Operates m) (f : Node) : ¬g.DependsOnLoop m f := by
  rintro ⟨k, hk, hc⟩
  obtain rfl | ⟨n, hf, -⟩ := hk.cases_head
  · exact hu k hm f hc
  · exact hu k hf.operates f hc

namespace Evaluation

variable {scene : Scene} {hg : scene.graph.Acyclic} {s s' : State}

theorem Twins.changeLoops (h : Twins scene hg s s') (hu : scene.graph.Uncounted) (loops : Loops) :
    Twins { scene with loops } hg s s' where
  consistent := h.consistent.changeLoops loops fun _ hm _ f hf =>
    absurd hf (hu.not_dependsOnLoop hm f)
  consistent' := h.consistent'.changeLoops loops fun _ hm _ f hf =>
    absurd hf (hu.not_dependsOnLoop hm f)
  thinned := h.thinned

theorem Twins.bump (h : Twins scene hg s s') (bindings : Variables) :
    Twins { scene with bindings } hg s.bump s'.bump where
  consistent := h.consistent.bump
  consistent' := h.consistent'.bump
  thinned := h.thinned

theorem Twins.append (h : Twins scene hg s s') (es : List Entry) :
    Twins scene hg { s with trace := ⟨s.trace.entries ++ es⟩ }
      { s' with trace := ⟨s'.trace.entries ++ es⟩ } where
  consistent := h.consistent.congr rfl rfl rfl
  consistent' := h.consistent'.congr rfl rfl rfl
  thinned := h.thinned.append es

end Evaluation

namespace Run

section

variable {setting : Setting} {hg : setting.graph.Acyclic} {s s' : State}

def Setting.forget (setting : Setting) : Setting := { setting with memo := false }

/-- The states of the two runs after the same visits. -/
structure Matches (setting : Setting) (hg : setting.graph.Acyclic) (s s' : State) : Prop where
  bindings : s'.bindings = s.bindings
  loops : s'.loops = s.loops
  queue : s'.queue = s.queue
  steps : s'.steps = s.steps
  twins : Twins (s.scene setting) hg s.evaluation s'.evaluation

def memoSimulation (hg : setting.graph.Acyclic) (hr : setting.graph.RandomFree)
    (hu : setting.graph.Uncounted) : Simulation setting setting.forget where
  node := Eq
  core vs ls ls' e e' := ls' = ls ∧ Twins (setting.scene vs ls) hg e e'
  limit := rfl
  kind h := h ▸ rfl
  properties h := h ▸ rfl
  sequence h := by
    subst h
    exact List.forall₂_refl _
  follow label h := by
    subst h
    exact List.forall₂_refl _
  counting h hc := h ▸ hc.1 ▸ rfl
  iterations h hc := h ▸ hc.1 ▸ rfl
  read label h hc := by
    obtain ⟨rfl, ht⟩ := hc
    subst h
    obtain ⟨hv, ht⟩ := ht.inputValue hr _ label
    exact ⟨hv, rfl, ht⟩
  append {_ _ _ _ _ x x'} h hc := by
    have hx : x' = x := by
      cases h with
      | print text => rfl
      | warning h | failed h | loopLimit h => rw [h]
    rw [hx]
    exact ⟨hc.1, hc.2.append [x]⟩
  bump ws hc := ⟨hc.1, hc.2.bump ws⟩
  startFor state h hc := by
    subst h
    obtain ⟨rfl, ht⟩ := hc
    exact ⟨rfl, ht.changeLoops hu _⟩
  setWhile k h hc := by
    subst h
    obtain ⟨rfl, ht⟩ := hc
    exact ⟨rfl, ht.changeLoops hu _⟩
  finish h hc := by
    subst h
    obtain ⟨rfl, ht⟩ := hc
    exact ⟨rfl, ht.changeLoops hu _⟩

theorem Matches.drain (hr : setting.graph.RandomFree) (hu : setting.graph.Uncounted)
    (h : Matches setting hg s s') (n : Nat) :
    Matches setting hg (drain setting n s) (drain setting.forget n s') := by
  have hqueue : List.Forall₂ Eq s.queue s'.queue := List.forall₂_eq_eq_eq ▸ h.queue.symm
  have hs : (memoSimulation hg hr hu).Related s s' :=
    ⟨h.bindings, hqueue, h.steps, h.loops, h.twins⟩
  have ht := hs.drain n
  have hqueue :
      List.Forall₂ Eq (Run.drain setting n s).queue (Run.drain setting.forget n s').queue :=
    ht.queue
  rw [List.forall₂_eq_eq_eq] at hqueue
  exact ⟨ht.bindings, ht.core.1, hqueue.symm, ht.steps, ht.core.2⟩

theorem Begins.matches (h : Begins setting s) : Matches setting hg s s := by
  obtain ⟨generator, entry, -, rfl⟩ := h.eq
  exact ⟨rfl, rfl, rfl, rfl, consistent_of_empty rfl rfl, consistent_of_empty rfl rfl, .refl _⟩

theorem Matches.conclude (h : Matches setting hg s s') (entry : Node) :
    (conclude setting.forget entry s').1 = (conclude setting entry s).1 ∧
      (conclude setting entry s).2.trace.Thinned (conclude setting.forget entry s').2.trace := by
  have hlimit : setting.forget.config = setting.config := rfl
  unfold Run.conclude
  rw [h.queue, h.bindings, hlimit]
  split
  · exact h.twins.thinned.close s.bindings
  · exact (h.twins.thinned.append [_]).close s.bindings

/-- After every step, a run that uses results again has made the same visits, has the same
variables, loops and nodes to visit, and has printed and reported the same as one that does not.
What it has warned of is a part of what the other has. -/
theorem memo_transparent (hg : setting.graph.Acyclic) (hr : setting.graph.RandomFree)
    (hu : setting.graph.Uncounted) (hs : Begins setting s) (n : Nat) :
    visits setting.forget s n = visits setting s n ∧
      (drain setting.forget n s).queue = (drain setting n s).queue ∧
      (drain setting.forget n s).steps = (drain setting n s).steps ∧
      (drain setting.forget n s).bindings = (drain setting n s).bindings ∧
      (drain setting.forget n s).loops = (drain setting n s).loops ∧
      (drain setting n s).trace.Thinned (drain setting.forget n s).trace ∧
      ∀ entry,
        (conclude setting.forget entry (drain setting.forget n s)).1 =
            (conclude setting entry (drain setting n s)).1 ∧
          (conclude setting entry (drain setting n s)).2.trace.Thinned
            (conclude setting.forget entry (drain setting.forget n s)).2.trace := by
  have hmatches (i : Nat) : Matches setting hg (drain setting i s) (drain setting.forget i s) :=
    hs.matches.drain hr hu i
  have hvisited (i : Nat) : visited? setting.forget s i = visited? setting s i := by
    rw [visited?, visited?, (hmatches i).queue]
  have hn := hmatches n
  refine ⟨?_, hn.queue, hn.steps, hn.bindings, hn.loops, hn.twins.thinned, hn.conclude⟩
  rw [visits, visits, funext hvisited]

end

namespace RepeatedWarning

open Sample

def loop : Node :=
  { id := "loop"
    kind := .forLoop
    outputs := [⟨"body", "loop", "Loop Body", .exec, .output⟩,
      ⟨"index", "loop", "Index", .integer, .output⟩]
    properties := ⟨[("start", .int 1), ("end", .int 3), ("step", .int 1)]⟩ }

def division : Node :=
  { id := "division"
    kind := .divideInteger
    inputs := [⟨"a", "division", "A", .integer, .input⟩, ⟨"b", "division", "B", .integer, .input⟩]
    outputs := [⟨"result", "division", "Result", .integer, .output⟩] }

def graph : Graph :=
  .ofLists [entry, loop, division, print "index", print "first", print "second"]
    [⟨"1", "entry", "then", "loop", "in", .exec⟩, ⟨"2", "loop", "body", "index", "in", .exec⟩,
      ⟨"3", "loop", "body", "first", "in", .exec⟩, ⟨"4", "loop", "body", "second", "in", .exec⟩,
      ⟨"5", "loop", "index", "index", "text", .integer⟩,
      ⟨"6", "division", "result", "first", "text", .integer⟩,
      ⟨"7", "division", "result", "second", "text", .integer⟩]

theorem acyclic_graph : graph.Acyclic :=
  Graph.acyclic_of_rank (fun id => if id = "division" then 0 else 1) (by decide)

theorem randomFree_graph : graph.RandomFree := by
  unfold Graph.RandomFree
  decide

theorem uncounted_graph : graph.Uncounted := Graph.uncounted_of_wires (by decide)

/-- In the first iteration the warning of the division is repeated only if the result is not
used again. -/
theorem memo_transparent_first :
    graph.Acyclic ∧ graph.RandomFree ∧ graph.Uncounted ∧ Begins (setting graph) opening ∧
      (drain (setting graph) 6 opening).trace.size = 4 ∧
      (drain (setting graph).forget 6 opening).trace.size = 5 ∧
      visits (setting graph).forget opening 6 = visits (setting graph) opening 6 ∧
      (drain (setting graph) 6 opening).trace.Thinned
        (drain (setting graph).forget 6 opening).trace := by
  have hb : Begins (setting graph) opening := begins_opening rfl
  obtain ⟨hvisits, -, -, -, -, hthinned, -⟩ :=
    memo_transparent acyclic_graph randomFree_graph uncounted_graph hb 6
  exact ⟨acyclic_graph, randomFree_graph, uncounted_graph, hb, by decide +kernel,
    by decide +kernel, hvisits, hthinned⟩

end RepeatedWarning

end Run

end NodeScript
