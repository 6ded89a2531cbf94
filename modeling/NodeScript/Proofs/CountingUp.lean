import NodeScript.Proofs.Accumulation

namespace NodeScript

open Evaluation

/-- A loop that goes on as long as the variable is below `bound` and whose body adds one to the
variable; after the loop `done` prints a line. -/
structure CountingUp (bound : Int) extends Accumulation "i" where
  done : Node
  count : Origin
  limit : Origin
  less : Origin
  one : Origin
  loop_kind : loop.kind = .whileLoop
  condition : labelOrigin graph loop "Condition" = less
  compares : graph.Applies .lessThanInteger count limit less
  reads_count : count.ReadsVariable "i"
  literal_limit : graph.Literal (.int bound) limit
  adds : graph.Applies .addInteger count one sum
  literal_one : graph.Literal (.int 1) one
  after_loop : graph.follow loop Run.completed = [done]
  done_kind : done.kind = .printString
  done_text : labelOrigin graph done "In String" = .value (.text "done")
  after_done : graph.follow done "" = []

namespace CountingUp

open Run

section

variable {bound : Int} (L : CountingUp bound)

abbrev atLoop (k : Nat) (e : Evaluation.State) : Run.State :=
  L.toAccumulation.atLoop Int.ofNat (.repeated L.loop.id) k e

abbrev atBody (k : Nat) (e : Evaluation.State) : Run.State :=
  L.toAccumulation.atBody Int.ofNat (.repeated L.loop.id) k e

def atDone (k : Nat) (e : Evaluation.State) : Run.State where
  bindings := ⟨[("i", .int k)]⟩
  evaluation := e
  queue := [L.done]
  steps := 2 * k + 3

def ended (_ : CountingUp bound) (k : Nat) (e : Evaluation.State) : Run.State where
  bindings := ⟨[("i", .int k)]⟩
  evaluation := e
  steps := 2 * k + 4

variable {config : Config} {c : Int} {k : Nat} {e : Evaluation.State} {s : Run.State}

theorem supplies_less (config : Config) (hs : s.bindings = ⟨[("i", .int k)]⟩) (he : e.Blank) :
    Supplies (s.scene (L.setting config)) e L.less (.bool ((k : Int) < bound)) := by
  apply supplies_lessThan L.compares he
  · intro t
    rw [supply_variable L.reads_count, State.scene, hs]
    rfl
  · exact provides_literal L.literal_limit

theorem supplies_sum (config : Config) (hs : s.bindings = ⟨[("i", .int k)]⟩) (he : e.Blank) :
    Supplies (s.scene (L.setting config)) e L.sum (.int (k + 1)) := by
  apply supplies_add L.adds he
  · intro t
    rw [supply_variable L.reads_count, State.scene, hs]
    rfl
  · exact provides_literal L.literal_one

theorem behaviour_loop {outcome : LoopStep} {iterations : Nat} (he : e.Blank)
    (ha : advanceWhile config.maxLoopIterations ((k : Int) < bound) k =
      .ok (outcome, iterations)) :
    ∃ e' : Evaluation.State, e'.bump.Blank ∧ e'.trace = e.trace ∧
      behaviour (L.setting config) L.loop
          { L.atLoop k e with queue := [], steps := 2 * k + 3 } =
        afterLoopStep (L.setting config) L.loop outcome
          { L.atLoop k e with
            loops := Loops.setWhile {} L.loop.id iterations
            evaluation := e'
            queue := []
            steps := 2 * k + 3 } := by
  let entered := enterWhile L.loop { L.atLoop k e with queue := [], steps := 2 * k + 3 }
  obtain ⟨e', hread, htrace, hblank⟩ :=
    read_of_supplies (L.setting config) (s := entered) L.condition
      (L.supplies_less config rfl he) he
  refine ⟨e', hblank, htrace, ?_⟩
  have hcondition : readCondition (L.setting config) L.loop entered =
      (.ok (decide ((k : Int) < bound)), { entered with evaluation := e' }) := by
    rw [readCondition_apply, hread]
    simp [Value.isTruthy, Value.isEmpty]
  exact behaviour_of_whileLoop_condition L.loop_kind rfl hcondition rfl ha

theorem step_atLoop (hc : config.maxLoopIterations = .int c) (hk : k < bound) (hkc : k < c)
    (he : e.Blank) :
    ∃ e' : Evaluation.State, e'.Blank ∧ e'.trace = e.trace ∧
      Run.step (L.setting config) (L.atLoop k e) = L.atBody k e' := by
  have ha : advanceWhile config.maxLoopIterations ((k : Int) < bound) k =
      .ok (.body, k + 1) := by
    rw [hc, advanceWhile_int, if_neg (by simp [hk]), if_neg (by omega)]
  obtain ⟨e', hblank, htrace, hb⟩ := L.behaviour_loop he ha
  have hbody : (L.setting config).graph.follow L.loop loopBody = [L.update] := L.body
  rw [afterLoopStep_body, hbody] at hb
  exact ⟨e'.bump, hblank, htrace, step_of_behaviour rfl hb⟩

theorem iterates (hc : config.maxLoopIterations = .int c) (hk : k < bound) (hkc : k < c) :
    L.Iterates Int.ofNat (.repeated L.loop.id) config k where
  enters _ he := L.step_atLoop hc hk hkc he
  supplies _ he := L.supplies_sum config rfl he

theorem step_atDone (hc : config.maxLoopIterations = .int c) (hpos : 0 ≤ c)
    (hk : k = min bound.toNat c.toNat) (hshort : Decimal.Short k) (he : e.Blank) :
    ∃ e' : Evaluation.State,
      e'.trace = e.trace.endLoop L.loop (.int c) (toString c) (c < bound) ∧
      Run.step (L.setting config) (L.atLoop k e) = L.atDone k e' := by
  have ha : advanceWhile config.maxLoopIterations ((k : Int) < bound) k =
      .ok (.leaving (c < bound), k) := by
    rw [hc, advanceWhile_int]
    by_cases hlt : c < bound
    · have hkb : (k : Int) < bound := by omega
      rw [if_neg (by simp [hkb]), if_pos (by omega)]
      simp [LoopStep.leaving, hlt]
    · have hkb : ¬(k : Int) < bound := by omega
      simp [LoopStep.leaving, hlt, hkb]
  have hcut : decide (c < bound) = true → Decimal.Short c := by
    intro hlt
    have hkc : (k : Int) = c := by
      have hlt : c < bound := by simpa using hlt
      omega
    rwa [hkc] at hshort
  obtain ⟨e', -, htrace, hb⟩ := L.behaviour_loop he ha
  have hnext : (L.setting config).graph.follow L.loop completed = [L.done] := L.after_loop
  rw [afterLoopStep_leaving hc hcut, hnext, Loops.finish_setWhile] at hb
  refine ⟨_, ?_, step_of_behaviour rfl hb⟩
  simp only [Run.State.trace, htrace]

theorem step_ended (config : Config) (k : Nat) (e : Evaluation.State) :
    Run.step (L.setting config) (L.atDone k e) =
      L.ended k { e with trace := e.trace.print "done" } := by
  have hb := behaviour_of_printString (L.setting config)
    (s := { L.atDone k e with queue := [], steps := 2 * k + 3 + 1 }) L.done_kind L.done_text
  have hnext : (L.setting config).graph.follow L.done "" = [] := L.after_done
  rw [hnext] at hb
  exact step_of_behaviour rfl hb

/-- A run counts up to its bound or to the limit of iterations, in two visits for each; a loop that
is cut off is reported, and what comes after the loop is visited in any case. -/
theorem run_counts_up {m : Int} (hm : config.maxSteps = .int m)
    (hc : config.maxLoopIterations = .int c) (hpos : 0 ≤ c) (hs : fresh config = .ok s)
    (hsteps : (2 * min bound.toNat c.toNat + 4 : Nat) ≤ m)
    (hshort : Decimal.Short (min bound.toNat c.toNat : Nat)) :
    ∃ r, run { graph := L.graph, config } = .ok r ∧
      r.state.steps = 2 * min bound.toNat c.toNat + 4 ∧
      r.lines = .ok
        ((if c < bound then
            ["Error: " ++ L.loop.reference ++ " exceeded " ++ (toString c : Text) ++
              " iterations. Loop aborted."]
          else []) ++
        [("done" : Text), "---", "  i: " ++ (toString (min bound.toNat c.toNat) : Text)]) := by
  have hiterates (k : Nat) (hk : k < min bound.toNat c.toNat) :=
    L.iterates hc (k := k) (by omega) (by omega)
  obtain ⟨e, he, htrace, hd⟩ := Accumulation.drain_atLoop hiterates rfl rfl hs
  obtain ⟨e', htrace', hloop⟩ := L.step_atDone hc hpos rfl hshort he
  obtain ⟨entries, -, -, -, -⟩ := L.leadsIn
  have hleft := drain_succ (L.setting config)
    (2 * min bound.toNat c.toNat + 2) (opened (L.setting config) s)
  rw [hd, hloop] at hleft
  have hdrain := drain_succ (L.setting config)
    (2 * min bound.toNat c.toNat + 3) (opened (L.setting config) s)
  rw [hleft, step_ended] at hdrain
  obtain ⟨r, hr, hcount, hlines⟩ := run_of_drain (L.setting config) hm hs entries (by omega) hdrain
    rfl (Variables.listing_int hshort "i")
  refine ⟨r, hr, hcount, ?_⟩
  have hwritten : (e'.trace.print "done").lines =
      (if c < bound then [Cause.line (.loopLimit L.loop (.int c) (toString c : Text))] else []) ++
        [("done" : Text)] := by
    have hbefore := Trace.lines_endLoop e.trace L.loop (.int c) (toString c) (c < bound)
    rw [← htrace', htrace] at hbefore
    simp only [Trace.lines, Trace.print, Trace.append, List.map_append] at hbefore ⊢
    rw [hbefore]
    simp [Entry.line]
  have hended : (L.ended (min bound.toNat c.toNat)
      { e' with trace := e'.trace.print "done" }).trace = e'.trace.print "done" := rfl
  rw [hlines, hended, hwritten, List.append_assoc]
  rfl

end

namespace Standard

def loop : Node := makeNode .whileLoop "loop" {}

def limit (bound : Int) : Node :=
  makeNode .integerLiteral "limit" { properties := [("value", .int bound)] }

def less : Node := makeNode .lessThanInteger "less" {}

def one : Node := makeNode .integerLiteral "one" { properties := [("value", .int 1)] }

def done : Node := makeNode .printString "done" { properties := [("text", .text "done")] }

def others (bound : Int) : List Node := [limit bound, less, one, done]

def wires : List Wire :=
  [⟨"7", "one", "one_OUTPUT_Value_0", "sum", "sum_INPUT_B_1", .integer⟩,
    ⟨"8", "current", "current_OUTPUT_Value_0", "less", "less_INPUT_A_0", .integer⟩,
    ⟨"9", "limit", "limit_OUTPUT_Value_0", "less", "less_INPUT_B_1", .integer⟩,
    ⟨"10", "less", "less_OUTPUT_Result_0", "loop", "loop_INPUT_Condition_1", .boolean⟩,
    ⟨"11", "loop", "loop_OUTPUT_Completed_1", "done", "done_INPUT_EXEC_0", .exec⟩]

theorem fits (bound : Int) : Accumulation.Standard.Fits "i" loop (others bound) wires where
  named := by decide
  loop_id := rfl
  body := rfl
  nodup := by
    have hids : (Accumulation.Standard.nodes "i" loop (others bound)).map Node.id =
      ["entry", "zero", "init", "current", "sum", "update", "loop", "limit", "less", "one",
        "done"] := rfl
    rw [hids]
    decide
  kinds := by simp [loop, others, limit, less, one, done, makeNode]
  apart := by decide

def result (node : Node) (id label : Text) (type : DataType) : Origin :=
  .output node ⟨id, node.id, label, type, .output⟩

end Standard

/-- For every bound there is such a graph, with nodes made from their templates. -/
def standard (bound : Int) : CountingUp bound where
  toAccumulation := .standard (Standard.fits bound)
  done := Standard.done
  count := Standard.result (Accumulation.Standard.current "i") "current_OUTPUT_Value_0" "Value" .any
  limit := Standard.result (Standard.limit bound) "limit_OUTPUT_Value_0" "Value" .integer
  less := Standard.result Standard.less "less_OUTPUT_Result_0" "Result" .boolean
  one := Standard.result Standard.one "one_OUTPUT_Value_0" "Value" .integer
  loop_kind := rfl
  condition := by
    simp only [Accumulation.standard, Accumulation.Standard.graph, labelOrigin, origin_ofLists]
    rfl
  compares := by
    refine .intro ((Standard.fits bound).mem_graph ?_) rfl rfl ?_
    · simp [Accumulation.Standard.nodes, Standard.others]
    · simp only [sources, Accumulation.standard, Accumulation.Standard.graph, origin_ofLists]
      rfl
  reads_count := .intro rfl rfl rfl
  literal_limit := by
    refine .intro ((Standard.fits bound).mem_graph ?_) rfl rfl rfl rfl
    simp [Accumulation.Standard.nodes, Standard.others]
  adds := by
    refine .intro ((Standard.fits bound).mem_graph ?_) rfl rfl ?_
    · simp [Accumulation.Standard.nodes]
    · simp only [sources, Accumulation.standard, Accumulation.Standard.graph, origin_ofLists]
      rfl
  literal_one := by
    refine .intro ((Standard.fits bound).mem_graph ?_) rfl rfl rfl rfl
    simp [Accumulation.Standard.nodes, Standard.others]
  after_loop := by
    simp only [Accumulation.standard, Accumulation.Standard.graph, Graph.follow_ofLists]
    rfl
  done_kind := rfl
  done_text := by
    simp only [Accumulation.standard, Accumulation.Standard.graph, labelOrigin, origin_ofLists]
    rfl
  after_done := by
    simp only [Accumulation.standard, Accumulation.Standard.graph, Graph.follow_ofLists]
    rfl

namespace Standard

def config : Config := { maxSteps := .int 10, maxLoopIterations := .int 3, seed := .int 0 }

/-- The limit cuts the loop off on the way to five. -/
theorem run_counts_up_cut_off :
    config.maxSteps = .int 10 ∧ config.maxLoopIterations = .int 3 ∧
      fresh config = .ok Sample.initial ∧ Decimal.Short 3 ∧
      ∃ r, run { graph := (standard 5).graph, config } = .ok r ∧ r.state.steps = 10 ∧
        r.lines = .ok
          ["Error: While Loop [WhileLoop] exceeded 3 iterations. Loop aborted.", "done", "---",
            "  i: 3"] := by
  have hshort : Decimal.Short 3 := by
    unfold Decimal.Short
    decide +kernel
  refine ⟨rfl, rfl, rfl, hshort, ?_⟩
  have hm : config.maxSteps = .int 10 := rfl
  obtain ⟨r, hr, hsteps, hlines⟩ :=
    (standard 5).run_counts_up (c := 3) hm rfl (by decide) rfl (by decide) hshort
  refine ⟨r, hr, hsteps, ?_⟩
  rw [hlines]
  decide +kernel

end Standard

end CountingUp

end NodeScript
