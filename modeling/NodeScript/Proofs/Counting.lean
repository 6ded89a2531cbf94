import Mathlib.Tactic.Positivity
import Mathlib.Tactic.Ring
import NodeScript.Loop

namespace NodeScript

theorem Value.reachedBy_int (limit : Int) (count : Nat) :
    (Value.int limit).reachedBy count = .ok (decide (limit ≤ count)) := by
  apply congrArg Except.ok
  rw [Bool.eq_iff_iff]
  simp only [Number.le, Number.lt, Number.eq, Bool.or_eq_true, decide_eq_true_eq, beq_iff_eq]
  omega

theorem Value.reachedBy_int_eq_false_iff {limit : Int} {count : Nat} :
    (Value.int limit).reachedBy count = .ok false ↔ (count : Int) < limit := by
  simp [reachedBy_int]

theorem advanceWhile_eq_body_iff {limit : Value} {condition : Bool} {m n : Nat} :
    advanceWhile limit condition m = .ok (.body, n) ↔
      condition = true ∧ limit.reachedBy m = .ok false ∧ n = m + 1 := by
  unfold advanceWhile
  cases condition with
  | false => simp [pure, Except.pure]
  | true =>
    cases limit.reachedBy m with
    | error fault => simp [bind, Except.bind]
    | ok reached => cases reached <;> simp [bind, Except.bind, pure, Except.pure, eq_comm]

theorem advanceWhile_int (c : Int) (condition : Bool) (k : Nat) :
    advanceWhile (.int c) condition k =
      .ok (if condition = false then (.completed, k)
        else if c ≤ k then (.aborted, k) else (.body, k + 1)) := by
  unfold advanceWhile
  rw [Value.reachedBy_int]
  cases condition with
  | false => rfl
  | true => by_cases hc : c ≤ k <;> simp [hc, bind, Except.bind, pure, Except.pure]

namespace ForState

variable {limit : Value} {s t : ForState} {start last step : Int} {k : Nat}

theorem advance_eq_body_iff :
    s.advance limit = .ok (.body, t) ↔
      s.pastEnd = false ∧ limit.reachedBy s.iterations = .ok false ∧
        t = { s with
          current := s.next, next := s.next + s.step, iterations := s.iterations + 1 } := by
  unfold advance
  cases s.pastEnd with
  | true => simp [pure, Except.pure]
  | false =>
    cases limit.reachedBy s.iterations with
    | error fault => simp [bind, Except.bind]
    | ok reached => cases reached <;> simp [bind, Except.bind, pure, Except.pure, eq_comm]

def toward (start last : Int) : Int := if start ≤ last then 1 else -1

/-- The state of a counting loop that has gone `k` times through its body. -/
def after (start last step : Int) (k : Nat) : ForState where
  next := start + k * (step.natAbs * toward start last)
  last := last
  step := step.natAbs * toward start last
  direction := toward start last
  iterations := k
  current := start + (k - 1 : Nat) * (step.natAbs * toward start last)

theorem after_zero (start last step : Int) : after start last step 0 = .start start last step := by
  simp [after, ForState.start, toward]

theorem after_of_advance (h : (after start last step k).advance limit = .ok (.body, t)) :
    t = after start last step (k + 1) := by
  obtain ⟨-, -, rfl⟩ := advance_eq_body_iff.mp h
  simp only [after, mk.injEq, Nat.add_sub_cancel, and_true, Nat.cast_succ]
  ring

/-- The number of iterations of a loop that no limit cuts off. -/
def count (start last step : Int) : Nat := (last - start).natAbs / step.natAbs + 1

theorem pastEnd_after_iff (hstep : step ≠ 0) :
    (after start last step k).pastEnd = true ↔ count start last step ≤ k := by
  have hpos : 0 < step.natAbs := Int.natAbs_pos.mpr hstep
  have hcount : count start last step ≤ k ↔ (last - start).natAbs < k * step.natAbs := by
    rw [count, Nat.succ_le_iff, Nat.div_lt_iff_lt_mul hpos]
  have hcast : ((k * step.natAbs : Nat) : Int) = k * step.natAbs := Nat.cast_mul k step.natAbs
  rw [hcount]
  by_cases hle : start ≤ last
  · simp only [pastEnd, after, toward, hle, if_true, mul_one, zero_lt_one, decide_eq_true_eq]
    omega
  · have hneg : ¬(0 : Int) < -1 := by decide
    simp only [pastEnd, after, toward, hle, if_false, mul_neg, mul_one, hneg, decide_eq_true_eq]
    omega

theorem advance_after (hstep : step ≠ 0) (c : Int) (k : Nat) :
    (after start last step k).advance (.int c) =
      .ok (if count start last step ≤ k then (.completed, after start last step k)
        else if c ≤ k then (.aborted, after start last step k)
        else (.body, after start last step (k + 1))) := by
  have hpast : (after start last step k).pastEnd = true ↔ count start last step ≤ k :=
    pastEnd_after_iff hstep
  have hiterations : (after start last step k).iterations = k := rfl
  by_cases hn : count start last step ≤ k
  · simp [advance, hpast.mpr hn, hn, pure, Except.pure]
  · have hp : (after start last step k).pastEnd = false := by simpa [hn] using hpast
    by_cases hc : c ≤ k
    · simp [advance, hp, hn, hc, hiterations, Value.reachedBy_int, bind, Except.bind, pure,
        Except.pure]
    · have hbody : (after start last step k).advance (.int c) = .ok (.body, _) :=
        advance_eq_body_iff.mpr ⟨hp, Value.reachedBy_int_eq_false_iff.mpr (not_le.mp hc), rfl⟩
      rw [if_neg hn, if_neg hc, hbody, after_of_advance hbody]

theorem next_after_mem (h : (after start last step k).pastEnd = false) :
    min start last ≤ (after start last step k).next ∧
      (after start last step k).next ≤ max start last := by
  by_cases hle : start ≤ last
  · have hfirst : start ≤ (after start last step k).next := by
      simp only [after, toward, if_pos hle, mul_one]
      exact le_add_of_nonneg_right (by positivity)
    have hlast : (after start last step k).next ≤ last := by
      simpa [pastEnd, after, toward, hle] using h
    rw [min_eq_left hle, max_eq_right hle]
    exact ⟨hfirst, hlast⟩
  · have hfirst : (after start last step k).next ≤ start := by
      simp only [after, toward, if_neg hle, mul_neg, mul_one]
      exact add_le_of_nonpos_right (neg_nonpos.mpr (by positivity))
    have hlast : last ≤ (after start last step k).next := by
      simpa [pastEnd, after, toward, hle] using h
    rw [min_eq_right (le_of_not_ge hle), max_eq_left (le_of_not_ge hle)]
    exact ⟨hlast, hfirst⟩

/-- The loop counts from `start` toward `last` by the absolute value of `step`, is in an iteration
that the limit permits, and has an index between the bounds. -/
structure InRange (limit start last step : Int) (s : ForState) : Prop where
  step_eq : s.step = step.natAbs * toward start last
  one_le_iterations : 1 ≤ s.iterations
  iterations_le : s.iterations ≤ limit
  current_eq : s.current = start + (s.iterations - 1) * s.step
  next_eq : s.next = s.current + s.step
  min_le_current : min start last ≤ s.current
  current_le_max : s.current ≤ max start last

theorem inRange_of_advance {limit : Int}
    (h : (after start last step k).advance (.int limit) = .ok (.body, t)) :
    t = after start last step (k + 1) ∧ t.InRange limit start last step := by
  have ht := after_of_advance h
  obtain ⟨hp, hr, -⟩ := advance_eq_body_iff.mp h
  obtain ⟨hmin, hmax⟩ := next_after_mem hp
  have hcurrent : (after start last step (k + 1)).current = (after start last step k).next := rfl
  subst ht
  refine ⟨rfl, rfl, Nat.succ_pos k, ?_, ?_, ?_, hcurrent ▸ hmin, hcurrent ▸ hmax⟩
  · exact Value.reachedBy_int_eq_false_iff.mp hr
  · simp [after]
  · simp only [after, Nat.add_sub_cancel, Nat.cast_succ]
    ring

end ForState

end NodeScript
