import NodeScript.Proofs.Counting
import NodeScript.Proofs.Reads

namespace NodeScript.Run

variable {setting : Setting} {node : Node} {s t : State}

/-- The state with which the visit of a counting loop goes on: the one that was kept, or a new
one. -/
inductive Resumes (setting : Setting) (node : Node) (s : State) (state : ForState) : Prop
  | kept (h : s.loops.counting.get? node.id = some state)
  | begun {u : State} (hn : s.loops.counting.get? node.id = none)
    (h : beginLoop setting node s = (.ok (some state), u))

/-- What a visit of `node` that leads from `s` to `t` does to the states of loops. -/
inductive LoopVisit (setting : Setting) (node : Node) (s t : State) : Prop
  | untouched (hw : node.kind ≠ .whileLoop)
    (hf : node.kind = .forLoop → s.loops.counting.get? node.id = none) (h : t.loops = s.loops)
  | counted {state state' : ForState} (hk : node.kind = .forLoop)
    (hr : Resumes setting node s state)
    (ha : state.advance setting.config.maxLoopIterations = .ok (.body, state'))
    (h : t.loops = s.loops.startFor node.id state') (hq : node ∈ t.queue)
  | repeated (hk : node.kind = .whileLoop)
    (h : t.loops = s.loops.setWhile node.id (s.loops.iterations node.id + 1)) (hq : node ∈ t.queue)
  | ended (h : t.loops = s.loops.finish node.id)
  | unread {fault : Fault} {u : State} (hk : node.kind = .whileLoop)
    (hr : Reads setting node s "Condition" u)
    (hf : (read setting node "Condition" u).1 = .error fault)
    (h : t.loops = s.loops.setWhile node.id (s.loops.iterations node.id))

theorem stable_loops (setting : Setting) : WriteStable setting (fun s t => t.loops = s.loops) where
  refl _ := rfl
  trans hst htu := htu.trans hst
  read _ _ _ := rfl
  trace _ _ _ := rfl
  bindings _ _ := rfl
  bump _ := rfl

theorem loops_visit (setting : Setting) (node : Node) (s : State) :
    (visit setting node s).loops = (behaviour setting node s).2.loops :=
  (alike_visit setting node s).loops

theorem queue_visit (hn : node ∈ setting.graph.nodes) (s : State) :
    (visit setting node s).queue =
      match (behaviour setting node s).1 with
      | .ok next => s.queue ++ next
      | .error _ => s.queue := by
  have hq := (stable_queue.ensures_behaviour hn s).1
  unfold visit
  rw [ExceptT.run]
  rcases he : behaviour setting node s with ⟨fault | next, u⟩
  · rw [he] at hq
    exact hq
  · rw [he] at hq
    exact congrArg (· ++ next) hq

theorem mem_queue_visit (hn : node ∈ setting.graph.nodes) {m : Node} (hm : m ∈ s.queue) :
    m ∈ (visit setting node s).queue := by
  rw [queue_visit hn]
  split
  · exact List.mem_append_left _ hm
  · exact hm

theorem loops_afterLoopStep {outcome : LoopStep} (h : outcome ≠ .body) (s : State) :
    (afterLoopStep setting node outcome s).2.loops = s.loops.finish node.id := by
  cases outcome with
  | body => exact absurd rfl h
  | completed => rfl
  | aborted =>
    unfold afterLoopStep
    dsimp only
    cases setting.config.maxLoopIterations.plain <;> rfl

/-- With the state it goes on with, a counting loop is queued again or ends. -/
theorem loopVisit_proceed (hl : setting.Limited) (hn : node ∈ setting.graph.nodes)
    (hk : node.kind = .forLoop) {state : ForState} (hr : Resumes setting node s state) {u : State}
    (hu : ∀ state', u.loops.startFor node.id state' = s.loops.startFor node.id state')
    (hb : behaviour setting node s = proceed setting node state u) :
    LoopVisit setting node s (visit setting node s) := by
  obtain ⟨⟨outcome, state'⟩, ha⟩ := hl.advance state
  have hloops := loops_visit setting node s
  have hqueue := queue_visit hn s
  rw [hb, proceed_eq ha] at hloops hqueue
  by_cases ho : outcome = .body
  · subst ho
    refine .counted hk hr ha (hloops.trans (hu state')) ?_
    rw [hqueue]
    exact List.mem_append_right _ (List.mem_append_right _ List.mem_cons_self)
  · apply LoopVisit.ended
    rw [hloops, loops_afterLoopStep ho, ← Loops.finish_startFor s.loops node.id state', ← hu state']

theorem loopVisit_visitForLoop (hl : setting.Limited) (hn : node ∈ setting.graph.nodes)
    (hk : node.kind = .forLoop) (s : State) :
    LoopVisit setting node s (visit setting node s) := by
  have hw : node.kind ≠ .whileLoop := by simp [hk]
  have hbegin := ((stable_loops setting).ensures_beginLoop node s).1
  have hb : behaviour setting node s = visitForLoop setting node s := by
    rw [behaviour_of_forLoop hk]
  rw [visitForLoop_apply] at hb
  cases hc : s.loops.counting.get? node.id with
  | some state =>
    rw [hc] at hb
    exact loopVisit_proceed hl hn hk (.kept hc) (fun _ => rfl) hb
  | none =>
    rw [hc] at hb
    rcases hx : beginLoop setting node s with ⟨fault | _ | state, u⟩
    · rw [hx] at hbegin hb
      refine .untouched hw (fun _ => hc) ?_
      rw [loops_visit, hb]
      exact hbegin
    · rw [hx] at hbegin hb
      refine .untouched hw (fun _ => hc) ?_
      rw [loops_visit, hb]
      exact hbegin
    · rw [hx] at hbegin hb
      refine loopVisit_proceed hl hn hk (.begun hc hx) (fun state' => ?_) hb
      dsimp only at hbegin ⊢
      rw [Loops.startFor_startFor, hbegin]

/-- A conditional loop reads its condition when it has a state already. -/
theorem Reads.of_whileLoop {label : Text} (h : Reads setting node s label t)
    (hk : node.kind = .whileLoop) :
    label = "Condition" ∧
      t = { s with loops := s.loops.setWhile node.id (s.loops.iterations node.id) } := by
  cases h with
  | loopCondition => exact ⟨rfl, rfl⟩
  | print h | branch h | assigned h | loopStart h | loopEnd h | loopStep h => simp [hk] at h

theorem loops_visit_of_unread (hk : node.kind = .whileLoop) {u : State} {fault : Fault}
    (hr : Reads setting node s "Condition" u)
    (hf : (read setting node "Condition" u).1 = .error fault) :
    (visit setting node s).loops = s.loops.setWhile node.id (s.loops.iterations node.id) := by
  obtain ⟨-, hu⟩ := hr.of_whileLoop hk
  have hloops := (stable_loops setting).read u node "Condition"
  rcases he : read setting node "Condition" u with ⟨fault' | value, v⟩
  · rw [he, hu] at hloops
    rw [loops_visit, hr.behaviour_eq_error he]
    exact hloops
  · rw [he] at hf
    cases hf

theorem loopVisit_visitWhileLoop (hl : setting.Limited) (hn : node ∈ setting.graph.nodes)
    (hk : node.kind = .whileLoop) (s : State) :
    LoopVisit setting node s (visit setting node s) := by
  let s' : State := { s with loops := s.loops.setWhile node.id (s.loops.iterations node.id) }
  have hread := (stable_loops setting).read s' node "Condition"
  cases hx : (read setting node "Condition" s').1 with
  | error fault =>
    have hr : Reads setting node s "Condition" s' := .loopCondition hk
    exact .unread hk hr hx (loops_visit_of_unread hk hr hx)
  | ok v =>
    have hloops := loops_visit setting node s
    have hqueue := queue_visit hn s
    obtain ⟨⟨outcome, iterations⟩, ha⟩ := hl.advanceWhile v.isTruthy (s'.loops.iterations node.id)
    rw [behaviour_of_whileLoop hk, visitWhileLoop_apply, readCondition_apply] at hloops hqueue
    rcases he : read setting node "Condition" s' with ⟨r, u⟩
    rw [he] at hx hread hloops hqueue
    dsimp only at hx hread
    subst hx
    dsimp only at hloops hqueue
    rw [ha] at hloops hqueue
    by_cases ho : outcome = .body
    · subst ho
      obtain ⟨-, -, hi⟩ := advanceWhile_eq_body_iff.mp ha
      rw [Loops.iterations_setWhile_self] at hi
      refine .repeated hk ?_ ?_
      · rw [hloops, ← hi, ← Loops.setWhile_setWhile s.loops node.id (s.loops.iterations node.id)]
        exact congrArg (·.setWhile node.id iterations) hread
      · rw [hqueue]
        exact List.mem_append_right _ (List.mem_append_right _ List.mem_cons_self)
    · apply LoopVisit.ended
      rw [hloops, loops_afterLoopStep ho]
      dsimp only
      rw [hread, Loops.finish_setWhile]
      exact Loops.finish_setWhile _ _ _

theorem loopVisit_visit (hl : setting.Limited) (hn : node ∈ setting.graph.nodes) (s : State) :
    LoopVisit setting node s (visit setting node s) := by
  by_cases hf : node.kind = .forLoop
  · exact loopVisit_visitForLoop hl hn hf s
  · by_cases hw : node.kind = .whileLoop
    · exact loopVisit_visitWhileLoop hl hn hw s
    · refine .untouched hw (fun hk => absurd hk hf) ?_
      rw [loops_visit]
      exact ((stable_loops setting).ensures_behaviour_of_ne hf hw s).1

theorem loopVisit_drain (hl : setting.Limited) (hs : InGraph setting s.queue) {n : Nat}
    (hv : visited? setting s n = some node) :
    LoopVisit setting node (entering setting s n) (drain setting (n + 1) s) := by
  rw [drain_succ_of_visited? hv]
  exact loopVisit_visit hl (mem_nodes_of_visited? hs hv) _

theorem LoopVisit.get?_of_ne (h : LoopVisit setting node s t) {id : Text} (hid : id ≠ node.id) :
    t.loops.counting.get? id = s.loops.counting.get? id ∧
      t.loops.conditional.get? id = s.loops.conditional.get? id := by
  cases h with
  | untouched hw hf h => rw [h]; exact ⟨rfl, rfl⟩
  | counted hk hr ha h hq => rw [h]; exact ⟨OrderedMap.get?_insert_of_ne _ hid _, rfl⟩
  | repeated hk h hq => rw [h]; exact ⟨rfl, OrderedMap.get?_insert_of_ne _ hid _⟩
  | ended h =>
    rw [h]
    exact ⟨OrderedMap.get?_erase_of_ne _ hid, OrderedMap.get?_erase_of_ne _ hid⟩
  | unread hk hr hf h => rw [h]; exact ⟨rfl, OrderedMap.get?_insert_of_ne _ hid _⟩

end NodeScript.Run
