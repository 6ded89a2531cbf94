import NodeScript.Proofs.Counting
import NodeScript.Proofs.Outcomes
import NodeScript.Proofs.Truncation

namespace NodeScript

/-- A counting loop that is not at its limit does the same under a higher one. -/
theorem ForState.advance_int_of_le {c c' : Int} (hle : c ≤ c') {state : ForState}
    (h : (state.advance (.int c)).toOption.map Prod.fst ≠ some .aborted) :
    state.advance (.int c') = state.advance (.int c) := by
  unfold advance at h ⊢
  rw [Value.reachedBy_int] at h ⊢
  rw [Value.reachedBy_int]
  by_cases hp : state.pastEnd = true
  · simp [hp]
  · have hc : ¬c ≤ state.iterations := by
      intro hc
      simp [hp, hc, bind, Except.bind, pure, Except.pure, Except.toOption] at h
    have hc' : ¬c' ≤ state.iterations := by omega
    simp [hc, hc']

theorem advanceWhile_int_of_le {c c' : Int} (hle : c ≤ c') {condition : Bool} {iterations : Nat}
    (h : (advanceWhile (.int c) condition iterations).toOption.map Prod.fst ≠ some .aborted) :
    advanceWhile (.int c') condition iterations = advanceWhile (.int c) condition iterations := by
  unfold advanceWhile at h ⊢
  rw [Value.reachedBy_int] at h ⊢
  rw [Value.reachedBy_int]
  cases condition with
  | false => rfl
  | true =>
    have hc : ¬c ≤ iterations := by
      intro hc
      simp [hc, bind, Except.bind, pure, Except.pure, Except.toOption] at h
    have hc' : ¬c' ≤ iterations := by omega
    simp [hc, hc']

namespace Run

def Setting.withIterations (setting : Setting) (c : Int) : Setting :=
  { setting with config := { setting.config with maxLoopIterations := .int c } }

section

variable {setting : Setting} {node : Node} {s : State} {c c' : Int}

theorem Setting.limited_withIterations (setting : Setting) (c : Int) :
    (setting.withIterations c).Limited := rfl

theorem afterLoopStep_withIterations {outcome : LoopStep} (h : outcome ≠ .aborted) :
    afterLoopStep (setting.withIterations c') node outcome =
      afterLoopStep (setting.withIterations c) node outcome := by
  cases outcome with
  | body => rfl
  | completed => rfl
  | aborted => exact absurd rfl h

theorem visitForLoop_withIterations (hle : c ≤ c') (hk : node.kind = .forLoop)
    (h : loopOutcome? (setting.withIterations c) node s ≠ some .aborted) :
    visitForLoop (setting.withIterations c') node s =
      visitForLoop (setting.withIterations c) node s := by
  have hresume : resumeLoop (setting.withIterations c') node s =
      resumeLoop (setting.withIterations c) node s := rfl
  rw [loopOutcome?_of_forLoop _ hk] at h
  rw [visitForLoop_eq, visitForLoop_eq, hresume]
  generalize resumeLoop (setting.withIterations c) node s = x at h ⊢
  obtain ⟨r, t⟩ := x
  cases r with
  | error fault => rfl
  | ok state =>
    cases state with
    | none => rfl
    | some state =>
      dsimp only at h ⊢
      obtain ⟨⟨outcome, state'⟩, ha⟩ := (setting.limited_withIterations c).advance state
      have ha' : state.advance (setting.withIterations c').config.maxLoopIterations =
          .ok (outcome, state') := (ForState.advance_int_of_le hle h).trans ha
      rw [proceed_eq ha, proceed_eq ha', afterLoopStep_withIterations]
      rintro rfl
      exact h (by rw [ha]; rfl)

theorem visitWhileLoop_withIterations (hle : c ≤ c') (hk : node.kind = .whileLoop)
    (h : loopOutcome? (setting.withIterations c) node s ≠ some .aborted) :
    visitWhileLoop (setting.withIterations c') node s =
      visitWhileLoop (setting.withIterations c) node s := by
  have hread : readCondition (setting.withIterations c') node (enterWhile node s) =
      readCondition (setting.withIterations c) node (enterWhile node s) := rfl
  rw [loopOutcome?_of_whileLoop _ hk] at h
  rw [visitWhileLoop_eq, visitWhileLoop_eq, hread]
  generalize readCondition (setting.withIterations c) node (enterWhile node s) = x at h ⊢
  obtain ⟨r, t⟩ := x
  cases r with
  | error fault => rfl
  | ok condition =>
    dsimp only at h ⊢
    obtain ⟨⟨outcome, iterations⟩, ha⟩ :=
      (setting.limited_withIterations c).advanceWhile condition (s.loops.iterations node.id)
    have ha' : advanceWhile (setting.withIterations c').config.maxLoopIterations condition
        (s.loops.iterations node.id) = .ok (outcome, iterations) :=
      (advanceWhile_int_of_le hle h).trans ha
    rw [ha, ha']
    dsimp only
    rw [afterLoopStep_withIterations]
    rintro rfl
    exact h (by rw [ha]; rfl)

/-- The limit has no part in a visit that does not come up to it. -/
theorem behaviour_withIterations (hle : c ≤ c')
    (h : loopOutcome? (setting.withIterations c) node s ≠ some .aborted) :
    behaviour (setting.withIterations c') node s = behaviour (setting.withIterations c) node s := by
  by_cases hf : node.kind = .forLoop
  · rw [behaviour_of_forLoop hf, behaviour_of_forLoop hf]
    exact visitForLoop_withIterations hle hf h
  by_cases hw : node.kind = .whileLoop
  · rw [behaviour_of_whileLoop hw, behaviour_of_whileLoop hw]
    exact visitWhileLoop_withIterations hle hw h
  unfold behaviour
  cases hk : node.kind <;> first | contradiction | rfl

theorem visit_withIterations (hle : c ≤ c')
    (h : loopOutcome? (setting.withIterations c) node s ≠ some .aborted) :
    visit (setting.withIterations c') node s = visit (setting.withIterations c) node s := by
  unfold visit
  simp only [ExceptT.run, behaviour_withIterations hle h]

theorem drain_withIterations (hle : c ≤ c') {n : Nat}
    (h : ∀ i < n, abortsAt (setting.withIterations c) s i = false) :
    drain (setting.withIterations c') n s = drain (setting.withIterations c) n s := by
  induction n with
  | zero => rfl
  | succ n ih =>
    have hn := h n n.lt_succ_self
    rw [drain_succ, ih fun i hi => h i (hi.trans n.lt_succ_self)]
    cases hv : visited? (setting.withIterations c) s n with
    | none => rw [drain_succ_of_visited?_eq_none hv, step, List.head?_eq_none_iff.mp hv]
    | some node =>
      have ho : loopOutcome? (setting.withIterations c) node
          (entering (setting.withIterations c) s n) ≠ some .aborted := by
        simpa [abortsAt, hv] using hn
      rw [drain_succ_of_visited? hv, step, queue_of_visited? hv]
      exact visit_withIterations hle ho

theorem start_withIterations {permitted : Nat}
    (hp : setting.config.permittedSteps = .ok permitted)
    (h : drain (setting.withIterations c') permitted (opened setting s) =
      drain (setting.withIterations c) permitted (opened setting s)) :
    start (setting.withIterations c') s = start (setting.withIterations c) s := by
  have ho (k : Int) : opened (setting.withIterations k) s = opened setting s := rfl
  cases he : setting.graph.nodesOfKind .beginPlay with
  | nil =>
    have hstart (k : Int) := start_of_no_entry (setting.withIterations k) he s
    rw [hstart, hstart]
    rfl
  | cons entry others =>
    have hstart (k : Int) := start_of_entry (setting.withIterations k) he hp s
    rw [hstart, hstart, ho, ho, h]
    rfl

/-- A limit of iterations to which no loop of a run comes up may be raised: the visits and the
result of the run stay the same. -/
theorem loop_limit_transparent (setting : Setting) {steps : Int}
    (hsteps : setting.config.maxSteps = .int steps) (hs : fresh setting.config = .ok s)
    (hle : c ≤ c')
    (h : ∀ n < steps.toNat, abortsAt (setting.withIterations c) (opened setting s) n = false) :
    dequeued (setting.withIterations c') s = dequeued (setting.withIterations c) s ∧
      ∃ r, run (setting.withIterations c) = .ok r ∧ run (setting.withIterations c') = .ok r := by
  have hrun (c : Int) : run (setting.withIterations c) =
      .ok (start (setting.withIterations c) s) := by
    have hc : fresh (setting.withIterations c).config = fresh setting.config := rfl
    rw [run, hc, hs]
    rfl
  have hp : setting.config.permittedSteps = .ok steps.toNat := by
    rw [Config.permittedSteps, hsteps]
    rfl
  have hp' (c : Int) : (setting.withIterations c).config.permittedSteps = .ok steps.toNat := hp
  have hd {n : Nat} (hn : n ≤ steps.toNat) :
      drain (setting.withIterations c') n (opened setting s) =
        drain (setting.withIterations c) n (opened setting s) :=
    drain_withIterations hle fun i hi => h i (hi.trans_le hn)
  refine ⟨?_, start (setting.withIterations c) s, hrun c, ?_⟩
  · simp only [dequeued, hp']
    apply List.filterMap_congr
    intro n hn
    exact congrArg (·.queue.head?) (hd (List.mem_range.mp hn).le)
  · rw [hrun c', start_withIterations hp (hd le_rfl)]

end

namespace Exact

open Sample

def loop : Node :=
  { id := "loop"
    kind := .forLoop
    outputs := [⟨"body", "loop", "Loop Body", .exec, .output⟩,
      ⟨"completed", "loop", "Completed", .exec, .output⟩]
    properties := ⟨[("start", .int 1), ("end", .int 3), ("step", .int 1)]⟩ }

def graph : Graph :=
  .ofLists [entry, loop, print "each", print "last"]
    [⟨"1", "entry", "then", "loop", "in", .exec⟩, ⟨"2", "loop", "body", "each", "in", .exec⟩,
      ⟨"3", "loop", "completed", "last", "in", .exec⟩]

def limited : Setting := { setting graph with config.maxSteps := .int 12 }

/-- A limit of just as many iterations as the loop has is not reached. -/
theorem loop_limit_transparent_three :
    limited.config.maxSteps = .int 12 ∧ fresh limited.config = .ok initial ∧ (3 : Int) ≤ 5 ∧
      (∀ n < (12 : Int).toNat,
        abortsAt (limited.withIterations 3) (opened limited initial) n = false) ∧
      dequeued (limited.withIterations 5) initial = dequeued (limited.withIterations 3) initial ∧
      ∃ r, run (limited.withIterations 3) = .ok r ∧ run (limited.withIterations 5) = .ok r := by
  have h : ∀ n < (12 : Int).toNat,
      abortsAt (limited.withIterations 3) (opened limited initial) n = false := by decide +kernel
  exact ⟨rfl, rfl, by decide, h, loop_limit_transparent limited rfl rfl (by decide) h⟩

/-- Below that the loop is cut off in the visit that would begin its third iteration. -/
example : abortsAt (limited.withIterations 2) (opened limited initial) 5 = true := by decide +kernel

end Exact

end Run

end NodeScript
