import NodeScript.Proofs.Outcomes

namespace NodeScript.Run

open Evaluation

section

variable {setting : Setting} {node : Node} {fault : Fault} {s : State} {n : Nat}

theorem stable_inProgress (setting : Setting) :
    Stable setting (fun s t => t.evaluation.inProgress = s.evaluation.inProgress) where
  refl _ := rfl
  trans hst htu := htu.trans hst
  read s node label := by
    apply inputValue_preserves (R := fun s t => t.inProgress = s.inProgress) (fun _ => rfl)
    intro source hn e out
    exact Recursive.inProgress_output (recursive_eq_some_output e hn out)
  trace _ _ _ := rfl
  loops _ _ := rfl
  bindings _ _ := rfl
  bump _ := rfl

theorem Begins.inProgress_drain (hs : Begins setting s) (n : Nat) :
    (drain setting n s).evaluation.inProgress = [] := by
  have hkept := (stable_inProgress setting).drain (fun _ _ => rfl) (fun _ _ => rfl) hs.inGraph
    n.zero_le
  obtain ⟨generator, entry, -, rfl⟩ := hs.eq
  exact hkept

/-- From `s` to `t` the visit of `node` has failed: the node is off the queue, warnings and one line
that names the node have been written, and the variables and the generation are as they were. -/
structure Contained (node : Node) (fault : Fault) (s t : State) : Prop where
  bindings : t.bindings = s.bindings
  generation : t.evaluation.generation = s.evaluation.generation
  queue : s.queue = node :: t.queue
  inProgress : t.evaluation.inProgress = []
  written : ∃ ws : List Entry, (∀ e ∈ ws, e.isWarning = true) ∧
    t.trace.entries = s.trace.entries ++ ws ++ [.error (.failed node fault)] ∧
    t.trace.lines = s.trace.lines ++ ws.map Entry.line ++
      ["Error: " ++ node.reference ++ s!" failed: {fault.message}"]
  errors : t.trace.errors = s.trace.errors + 1

theorem visit_of_error (h : (behaviour setting node s).1 = .error fault) :
    visit setting node s =
      { (behaviour setting node s).2 with
        evaluation := { (behaviour setting node s).2.evaluation with
          trace := (behaviour setting node s).2.trace.report (.failed node fault) } } := by
  unfold visit
  rw [ExceptT.run]
  generalize behaviour setting node s = x at h ⊢
  obtain ⟨r, t⟩ := x
  cases h
  rfl

theorem onlyWarns_of_error (h : (behaviour setting node s).1 = .error fault) :
    OnlyWarns s (behaviour setting node s).2 := by
  have he := effect_behaviour setting node s
  generalize behaviour setting node s = x at h he ⊢
  cases he with
  | failed hs ho => exact hs
  | passed hk hs ho => cases h
  | printed hk hr hv ht => cases h
  | aborted ho hs hu ht => cases h

/-- A node that fails is contained, in whatever state of a run it is visited: the variables, the
generation and the rest of the queue stay, no successor is queued, nothing is left in progress, the
one error line names the node, and the next visit is that of the node queued behind it. -/
theorem failure_contained (hs : Begins setting s) (hv : visited? setting s n = some node)
    (hf : (behaviour setting node (entering setting s n)).1 = .error fault) :
    Contained node fault (drain setting n s) (drain setting (n + 1) s) ∧
      visited? setting s (n + 1) = (drain setting n s).queue[1]? := by
  have hvisit : drain setting (n + 1) s = _ := (drain_succ_of_visited? hv).trans (visit_of_error hf)
  have hkept := onlyWarns_of_error hf
  obtain ⟨ws, hentries, hws⟩ := hkept.warned
  have hqueue : (drain setting n s).queue = node :: (drain setting (n + 1) s).queue := by
    have hq := (stable_queue.ensures_behaviour (mem_nodes_of_visited? hs.inGraph hv)
      (entering setting s n)).1
    rw [queue_of_visited? hv, hvisit, ← hq]
  have htrace : (drain setting (n + 1) s).trace.entries =
      (drain setting n s).trace.entries ++ ws ++ [.error (.failed node fault)] := by
    rw [hvisit]
    exact congrArg (· ++ [Entry.error (.failed node fault)]) hentries
  refine ⟨⟨?_, ?_, hqueue, hs.inProgress_drain (n + 1), ⟨ws, hws, htrace, ?_⟩, ?_⟩, ?_⟩
  · rw [hvisit]
    exact hkept.bindings
  · rw [hvisit]
    exact hkept.generation
  · rw [Trace.lines, htrace, List.map_append, List.map_append]
    rfl
  · rw [hvisit]
    exact (Trace.errors_report _ _).trans (congrArg (· + 1) hkept.warned.errors_eq)
  · rw [visited?, hqueue]
    simp [List.head?_eq_getElem?]

end

namespace Overflow

open Sample

def loop : Node :=
  { id := "loop"
    kind := .forLoop
    inputs := [⟨"start", "loop", "Start", .integer, .input⟩,
      ⟨"end", "loop", "End", .integer, .input⟩]
    outputs := [⟨"completed", "loop", "Completed", .exec, .output⟩] }

def division : Node :=
  { id := "division"
    kind := .divideInteger
    outputs := [⟨"result", "division", "Result", .integer, .output⟩] }

def graph : Graph :=
  .ofLists
    [entry, loop, division, conversion, literal (.int (16 ^ 256)), print "next", print "last"]
    [⟨"1", "entry", "then", "loop", "in", .exec⟩, ⟨"2", "entry", "then", "next", "in", .exec⟩,
      ⟨"3", "division", "result", "loop", "start", .integer⟩,
      ⟨"4", "literal", "value", "conversion", "value", .integer⟩,
      ⟨"5", "conversion", "result", "loop", "end", .float⟩,
      ⟨"6", "loop", "completed", "last", "in", .exec⟩]

/-- The first bound leaves a warning before the last one fails. -/
theorem failure_contained_loop :
    ∃ fault, Begins (setting graph) opening ∧ visited? (setting graph) opening 1 = some loop ∧
      (behaviour (setting graph) loop (entering (setting graph) opening 1)).1 = .error fault ∧
      (drain (setting graph) 2 opening).trace.size = 2 ∧
      Contained loop fault (drain (setting graph) 1 opening) (drain (setting graph) 2 opening) ∧
      visited? (setting graph) opening 2 = (drain (setting graph) 1 opening).queue[1]? := by
  have hb : Begins (setting graph) opening := begins_opening rfl
  have hv : visited? (setting graph) opening 1 = some loop := rfl
  have hfails : failsAt (setting graph) opening 1 = true := by decide +kernel
  obtain ⟨fault, hf⟩ := (failsAt_of_visited? hv).mp hfails
  exact ⟨fault, hb, hv, hf, by decide +kernel, failure_contained hb hv hf⟩

end Overflow

end NodeScript.Run
