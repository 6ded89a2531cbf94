import NodeScript.Proofs.CacheSoundness

namespace NodeScript.Evaluation

open Meaning

structure Session where
  bindings : Variables
  loops : Loops
  evaluation : State

inductive Request
  | evaluate (nodeId pinId : Text)
  | inputValue (node : Node) (label : Text)
  | bump
  /-- Change the variables and the loops in some way, and begin a new generation. -/
  | change (bindings : Variables → Variables) (loops : Loops → Loops)

namespace Session

def fresh (bindings : Variables) (loops : Loops) (generator : Generator) (trace : Trace) :
    Session :=
  { bindings, loops, evaluation := { generator, trace } }

def scene (t : Session) (graph : Graph) : Scene :=
  { graph, bindings := t.bindings, loops := t.loops }

/-- A call changes the state, also where it ends in a fault. -/
def perform (graph : Graph) (t : Session) : Request → Session
  | .evaluate nodeId pinId =>
    { t with evaluation := (Evaluation.evaluate (t.scene graph) t.evaluation nodeId pinId).2 }
  | .inputValue node label =>
    { t with evaluation := (Evaluation.inputValue (t.scene graph) t.evaluation node label).2 }
  | .bump => { t with evaluation := t.evaluation.bump }
  | .change bindings loops =>
    { bindings := bindings t.bindings, loops := loops t.loops, evaluation := t.evaluation.bump }

def performAll (graph : Graph) (t : Session) (requests : List Request) : Session :=
  requests.foldl (perform graph) t

variable {g : Graph}

def Consistent (hg : g.Acyclic) (t : Session) : Prop :=
  Evaluation.Consistent (t.scene g) hg (fun _ => True) t.evaluation

theorem consistent_fresh (hg : g.Acyclic) (bindings : Variables) (loops : Loops)
    (generator : Generator) (trace : Trace) :
    (fresh bindings loops generator trace).Consistent hg := consistent_of_empty rfl rfl

theorem consistent_perform (hg : g.Acyclic) (hr : g.RandomFree) {t : Session}
    (h : t.Consistent hg) (request : Request) : (t.perform g request).Consistent hg := by
  cases request with
  | evaluate nodeId pinId => exact (evaluate_answers hr h nodeId pinId).consistent
  | inputValue node label =>
    exact (inputValue_answers hr (fun _ _ _ _ => trivial) h node label).consistent
  | bump => exact h.bump
  | change bindings loops => exact h.bump

theorem consistent_performAll (hg : g.Acyclic) (hr : g.RandomFree) {t : Session}
    (h : t.Consistent hg) (requests : List Request) : (t.performAll g requests).Consistent hg := by
  induction requests generalizing t with
  | nil => exact h
  | cons request requests ih => exact ih (consistent_perform hg hr h request)

end Session

/-- Whatever was asked and changed before, in an acyclic graph without random nodes a call answers
with the value at the variables and loops as they are. -/
theorem calls_eq_meaning {g : Graph} (hg : g.Acyclic) (hr : g.RandomFree) (bindings : Variables)
    (loops : Loops) (generator : Generator) (trace : Trace) (requests : List Request) :
    let t := (Session.fresh bindings loops generator trace).performAll g requests
    (∀ nodeId pinId, (evaluate (t.scene g) t.evaluation nodeId pinId).1 =
      pinValue (t.scene g) hg nodeId pinId) ∧
    (∀ node label, (inputValue (t.scene g) t.evaluation node label).1 =
      labelValue (t.scene g) hg node label) := by
  intro t
  have ht : t.Consistent hg := Session.consistent_performAll hg hr
    (Session.consistent_fresh hg bindings loops generator trace) requests
  constructor
  · intro nodeId pinId
    exact (evaluate_answers hr ht nodeId pinId).value trivial
  · intro node label
    exact (inputValue_answers hr (fun _ _ _ _ => trivial) ht node label).value
      fun _ _ _ _ _ _ => trivial

namespace Quadruple

def count : Node :=
  { id := "count"
    kind := .getVariable
    outputs := [⟨"value", "count", "Value", .any, .output⟩]
    properties := ⟨[("name", .text "n")]⟩ }

def sum (id : Text) : Node :=
  { id
    kind := .addInteger
    inputs := [⟨"a", id, "A", .integer, .input⟩, ⟨"b", id, "B", .integer, .input⟩]
    outputs := [⟨"result", id, "Result", .integer, .output⟩] }

def graph : Graph := .ofLists [count, sum "double", sum "quadruple"]
  [⟨"1", "count", "value", "double", "a", .any⟩, ⟨"2", "count", "value", "double", "b", .any⟩,
    ⟨"3", "double", "result", "quadruple", "a", .integer⟩,
    ⟨"4", "double", "result", "quadruple", "b", .integer⟩]

theorem acyclic_graph : graph.Acyclic :=
  Graph.acyclic_of_rank (fun id => if id = "quadruple" then 1 else 0) (by decide)

theorem randomFree_graph : graph.RandomFree := by
  unfold Graph.RandomFree
  decide

def session : Session :=
  (Session.fresh {} {} default {}).performAll graph
    [.evaluate "quadruple" "result", .change (·.insert "n" (.int 5)) id]

theorem calls_eq_meaning_quadruple :
    ∃ hg : graph.Acyclic, graph.RandomFree ∧
      (evaluate (session.scene graph) session.evaluation "quadruple" "result").1 =
        pinValue (session.scene graph) hg "quadruple" "result" :=
  ⟨acyclic_graph, randomFree_graph,
    (calls_eq_meaning acyclic_graph randomFree_graph {} {} default {}
      [.evaluate "quadruple" "result", .change (·.insert "n" (.int 5)) id]).1 _ _⟩

end Quadruple

end NodeScript.Evaluation
