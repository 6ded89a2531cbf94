import Mathlib.Algebra.BigOperators.Group.Finset.Basic
import NodeScript.Proofs.Accumulation

namespace NodeScript

open Evaluation

def ForState.indexSum (start last step : Int) (n : Nat) : Int :=
  ∑ k ∈ Finset.range n, (start + k * (step.natAbs * toward start last))

theorem ForState.indexSum_succ (start last step : Int) (n : Nat) :
    indexSum start last step (n + 1) =
      indexSum start last step n + (after start last step (n + 1)).current := by
  rw [indexSum, Finset.sum_range_succ]
  rfl

/-- A loop that counts from `start` toward `last` and whose body adds the index to the variable. -/
structure SummingLoop (start last step : Int) extends Accumulation "sum" where
  total : Origin
  index : Pin
  counts : graph.CountsBetween loop start last step
  adds : graph.Applies .addInteger total (.output loop index) sum
  reads_total : total.ReadsVariable "sum"
  index_data : index.isExec = false
  after_loop : graph.follow loop Run.completed = []

namespace SummingLoop

open ForState Run

section

variable {start last step : Int} (L : SummingLoop start last step)

abbrev atLoop (k : Nat) (e : Evaluation.State) : Run.State :=
  L.toAccumulation.atLoop (indexSum start last step) (.counted L.loop.id start last step) k e

abbrev atBody (k : Nat) (e : Evaluation.State) : Run.State :=
  L.toAccumulation.atBody (indexSum start last step) (.counted L.loop.id start last step) k e

variable {config : Config} {c : Int} {k : Nat} {e : Evaluation.State} {s : Run.State}

theorem step_atLoop (hc : config.maxLoopIterations = .int c) (hk : k < count start last step)
    (hkc : k < c) (e : Evaluation.State) :
    Run.step (L.setting config) (L.atLoop k e) = L.atBody k e.bump := by
  have ha : (after start last step k).advance config.maxLoopIterations =
      .ok (.body, after start last step (k + 1)) := by
    rw [hc, advance_after L.counts.step_ne_zero, if_neg (by omega), if_neg (by omega)]
  have hb := behaviour_of_countsBetween (L.setting config)
    (s := { L.atLoop k e with queue := [], steps := 2 * k + 2 + 1 }) L.counts rfl ha
  rw [afterLoopStep_body] at hb
  have hbody : (L.setting config).graph.follow L.loop loopBody = [L.update] := L.body
  rw [hbody] at hb
  exact step_of_behaviour rfl hb

/-- What the body assigns is the sum so far and the index of its iteration. -/
theorem supplies_sum (he : e.Blank) :
    Supplies ((L.atBody k e).scene (L.setting config)) e L.sum
      (.int (indexSum start last step (k + 1))) := by
  have hindex : (L.atBody k e).loops.currentIndex L.loop.id =
      (after start last step (k + 1)).current := by
    simp [Accumulation.atBody, Loops.counted, Loops.currentIndex, Loops.startFor]
  rw [indexSum_succ, ← hindex]
  apply supplies_add L.adds he
  · intro t
    exact supply_variable L.reads_total
  · apply provides_of_supply
    intro t
    exact supply_index L.counts.kind L.index_data

theorem iterates (hc : config.maxLoopIterations = .int c) (hk : k < count start last step)
    (hkc : k < c) :
    L.Iterates (indexSum start last step) (.counted L.loop.id start last step) config k where
  enters e he := ⟨e.bump, he.bump, rfl, L.step_atLoop hc hk hkc e⟩
  supplies _ he := L.supplies_sum he

def ended (_ : SummingLoop start last step) (k : Nat) (e : Evaluation.State) : Run.State where
  bindings := ⟨[("sum", .int (indexSum start last step k))]⟩
  evaluation := e
  steps := 2 * k + 3

theorem step_ended (hc : config.maxLoopIterations = .int c)
    (hk : k = min (count start last step) c.toNat)
    (hshort : c < count start last step → Decimal.Short c) (e : Evaluation.State) :
    ∃ e' : Evaluation.State,
      e'.trace = e.trace.endLoop L.loop (.int c) (toString c) (c < count start last step) ∧
      Run.step (L.setting config) (L.atLoop k e) = L.ended k e' := by
  have hpos : 0 < count start last step := Nat.succ_pos _
  have ha : (after start last step k).advance config.maxLoopIterations =
      .ok (.leaving (c < count start last step), after start last step k) := by
    rw [hc, advance_after L.counts.step_ne_zero]
    by_cases hlt : c < count start last step
    · rw [if_neg (by omega), if_pos (by omega)]
      simp [LoopStep.leaving, hlt]
    · rw [if_pos (by omega)]
      simp [LoopStep.leaving, hlt]
  have hb := behaviour_of_countsBetween (L.setting config)
    (s := { L.atLoop k e with queue := [], steps := 2 * k + 2 + 1 }) L.counts rfl ha
  have hnext : (L.setting config).graph.follow L.loop completed = [] := L.after_loop
  have hcut : decide (c < count start last step) = true → Decimal.Short c := by simpa using hshort
  rw [afterLoopStep_leaving hc hcut, hnext, Loops.finish_startFor] at hb
  exact ⟨_, rfl, step_of_behaviour rfl hb⟩

/-- A run sums up the indices of its loop, as many as there are or as the limit permits, in two
visits for each; a loop that is cut off is reported. -/
theorem run_sums_indices {m : Int} (hm : config.maxSteps = .int m)
    (hc : config.maxLoopIterations = .int c) (hs : fresh config = .ok s)
    (hsteps : (2 * min (count start last step) c.toNat + 3 : Nat) ≤ m)
    (hsum : Decimal.Short (indexSum start last step (min (count start last step) c.toNat)))
    (hlimit : c < count start last step → Decimal.Short c) :
    ∃ r, run { graph := L.graph, config } = .ok r ∧
      r.state.steps = 2 * min (count start last step) c.toNat + 3 ∧
      r.lines = .ok
        ((if c < count start last step then
            ["Error: " ++ L.loop.reference ++ " exceeded " ++ (toString c : Text) ++
              " iterations. Loop aborted."]
          else []) ++
        [("---" : Text), "  sum: " ++
          (toString (indexSum start last step (min (count start last step) c.toNat)) : Text)]) := by
  have hiterates (k : Nat) (hk : k < min (count start last step) c.toNat) :=
    L.iterates hc (k := k) (by omega) (by omega)
  obtain ⟨e, -, htrace, hd⟩ := Accumulation.drain_atLoop hiterates rfl rfl hs
  obtain ⟨e', htrace', hstep⟩ := L.step_ended hc rfl hlimit e
  obtain ⟨entries, -, -, -, -⟩ := L.leadsIn
  have hdrain := drain_succ (L.setting config)
    (2 * min (count start last step) c.toNat + 2) (opened (L.setting config) s)
  rw [hd, hstep] at hdrain
  obtain ⟨r, hr, hcount, hlines⟩ := run_of_drain (L.setting config) hm hs entries (by omega) hdrain
    rfl (Variables.listing_int hsum "sum")
  refine ⟨r, hr, hcount, ?_⟩
  have hwritten : (L.ended (min (count start last step) c.toNat) e').trace.lines =
      if c < count start last step then
        [Cause.line (.loopLimit L.loop (.int c) (toString c : Text))] else [] := by
    have hentries : (L.ended (min (count start last step) c.toNat) e').trace = e'.trace := rfl
    rw [hentries, htrace', Trace.lines_endLoop, htrace]
    simp [Trace.lines]
  rw [hlines, hwritten]
  rfl

end

namespace Standard

def loop (start last step : Int) : Node :=
  makeNode .forLoop "loop"
    { properties := [("start", .int start), ("end", .int last), ("step", .int step)] }

def indexWire : Wire := ⟨"7", "loop", "loop_OUTPUT_Index_1", "sum", "sum_INPUT_B_1", .integer⟩

theorem fits (start last step : Int) :
    Accumulation.Standard.Fits "sum" (loop start last step) [] [indexWire] where
  named := by decide
  loop_id := rfl
  body := rfl
  nodup := by
    have hids : (Accumulation.Standard.nodes "sum" (loop start last step) []).map Node.id =
      ["entry", "zero", "init", "current", "sum", "update", "loop"] := rfl
    rw [hids]
    decide
  kinds := by simp [loop, makeNode]
  apart := by decide

end Standard

/-- For all bounds and every step but zero there is such a graph. -/
def standard (start last step : Int) (h : step ≠ 0) : SummingLoop start last step where
  toAccumulation := .standard (Standard.fits start last step)
  total := .output (Accumulation.Standard.current "sum")
    ⟨"current_OUTPUT_Value_0", "current", "Value", .any, .output⟩
  index := ⟨"loop_OUTPUT_Index_1", "loop", "Index", .integer, .output⟩
  counts := by
    refine ⟨rfl, ?_, ?_, ?_, h⟩ <;>
    · simp only [Accumulation.standard, Accumulation.Standard.graph, labelOrigin, origin_ofLists]
      rfl
  adds := by
    refine .intro ((Standard.fits start last step).mem_graph ?_) rfl rfl ?_
    · simp [Accumulation.Standard.nodes]
    · simp only [sources, Accumulation.standard, Accumulation.Standard.graph, origin_ofLists]
      rfl
  reads_total := .intro rfl rfl rfl
  index_data := rfl
  after_loop := by
    simp only [Accumulation.standard, Accumulation.Standard.graph, Graph.follow_ofLists]
    rfl

namespace Standard

def config : Config := { maxSteps := .int 9, maxLoopIterations := .int 3, seed := .int 0 }

/-- From seven down to one in steps of two there are four indices, and the limit permits three. -/
theorem run_sums_indices_descending :
    config.maxSteps = .int 9 ∧ config.maxLoopIterations = .int 3 ∧
      fresh config = .ok Sample.initial ∧ count 7 1 2 = 4 ∧ indexSum 7 1 2 3 = 15 ∧
      Decimal.Short 15 ∧ Decimal.Short 3 ∧
      ∃ r, run { graph := (standard 7 1 2 (by decide)).graph, config } = .ok r ∧ r.state.steps = 9 ∧
        r.lines = .ok
          ["Error: For Loop [ForLoop] exceeded 3 iterations. Loop aborted.", "---",
            "  sum: 15"] := by
  have hsum : Decimal.Short 15 := by
    unfold Decimal.Short
    decide +kernel
  have hlimit : Decimal.Short 3 := by
    unfold Decimal.Short
    decide +kernel
  refine ⟨rfl, rfl, rfl, by decide, by decide, hsum, hlimit, ?_⟩
  have hm : config.maxSteps = .int 9 := rfl
  obtain ⟨r, hr, hsteps, hlines⟩ :=
    (standard 7 1 2 (by decide)).run_sums_indices (c := 3) hm rfl rfl (by decide) hsum
      fun _ => hlimit
  refine ⟨r, hr, hsteps, ?_⟩
  rw [hlines]
  decide +kernel

end Standard

end SummingLoop

end NodeScript
