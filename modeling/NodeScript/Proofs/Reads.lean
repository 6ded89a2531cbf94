import NodeScript.Proofs.Except
import NodeScript.Proofs.Freshness

/-!
The inputs that a run reads, and the values it finds there.
-/

namespace NodeScript

open Evaluation Relation

/-- The operation of `m` takes part in the value of an input of `node`. -/
def Graph.FlowsInto (g : Graph) (m node : Node) (label : Text) : Prop :=
  ∃ pin source out, node.inputPin? label = some pin ∧ origin g node pin = .output source out ∧
    out.isExec = false ∧ ReflTransGen g.Feeds m source

namespace Run

open Meaning

section

variable {setting : Setting} {node : Node} {s t : State}

/-- The visits of a run begin in the state `s`. -/
def Begins (setting : Setting) (s : State) : Prop :=
  ∃ s₀ entry, fresh setting.config = .ok s₀ ∧
    (setting.graph.nodesOfKind .beginPlay).head? = some entry ∧ s = { s₀ with queue := [entry] }

/-- A visit of `node` that begins in `s` comes to read an input in the state `t`. -/
inductive Reads (setting : Setting) (node : Node) (s : State) : Text → State → Prop
  | print (hk : node.kind = .printString) : Reads setting node s "In String" s
  | assigned {name : Text} {t : State} (hk : node.kind = .setVariable)
    (hn : variableName node s = (.ok (some name), t)) : Reads setting node s "Value" t
  | branch (hk : node.kind = .branch) : Reads setting node s "Condition" s
  | loopCondition (hk : node.kind = .whileLoop) :
    Reads setting node s "Condition"
      { s with loops := s.loops.setWhile node.id (s.loops.iterations node.id) }
  | loopStart (hk : node.kind = .forLoop) (hc : s.loops.counting.get? node.id = none) :
    Reads setting node s "Start" s
  | loopEnd {first : Value} {t : State} (hk : node.kind = .forLoop)
    (hc : s.loops.counting.get? node.id = none)
    (hf : read setting node "Start" s = (.ok first, t)) : Reads setting node s "End" t
  | loopStep {first last : Value} {t u : State} (hk : node.kind = .forLoop)
    (hc : s.loops.counting.get? node.id = none)
    (hf : read setting node "Start" s = (.ok first, t))
    (hl : read setting node "End" t = (.ok last, u)) (hi : first.toInteger?.isSome = true)
    (hj : last.toInteger?.isSome = true) : Reads setting node s "Step" u

/-- After `n` visits of a run, the next one comes to read an input of its node in the state `t`. -/
def ReadsAfter (setting : Setting) (s : State) (n : Nat) (node : Node) (label : Text) (t : State) :
    Prop :=
  ∃ queue, (drain setting n s).queue = node :: queue ∧
    Reads setting node { drain setting n s with queue, steps := (drain setting n s).steps + 1 }
      label t

theorem Reads.reading (hr : setting.graph.RandomFree) {label : Text}
    (h : Reads setting node s label t) : Reading setting s t := by
  have hread := readStable_reading hr
  cases h with
  | print hk => exact hread.refl s
  | assigned hk hn =>
    have h := (hread.ensures_variableName node s).1
    rwa [hn] at h
  | branch hk => exact hread.refl s
  | loopCondition hk => exact .of_same rfl rfl rfl rfl fun _ _ _ => rfl
  | loopStart hk hc => exact hread.refl s
  | loopEnd hk hc hf =>
    have h := hread.read s node "Start"
    rwa [hf] at h
  | @loopStep _ _ u _ hk hc hf hl hi hj =>
    have hs := hread.read s node "Start"
    have hu := hread.read u node "End"
    rw [hf] at hs
    rw [hl] at hu
    exact hread.trans hs hu

theorem readCondition_apply (setting : Setting) (node : Node) (s : State) :
    readCondition setting node s =
      match read setting node "Condition" s with
      | (.ok v, t) => (.ok v.isTruthy, t)
      | (.error fault, t) => (.error fault, t) := by
  unfold readCondition
  rw [bind_apply]
  rcases read setting node "Condition" s with ⟨fault | v, t⟩ <;> rfl

/-- A visit ends with the fault of a read. -/
theorem Reads.behaviour_eq_error {label : Text} (h : Reads setting node s label t)
    {fault : Fault} {u : State} (hread : read setting node label t = (.error fault, u)) :
    behaviour setting node s = (.error fault, u) := by
  cases h with
  | print hk =>
    rw [behaviour, hk]
    dsimp only
    rw [bind_apply, hread]
  | assigned hk hn =>
    rw [behaviour, hk]
    dsimp only
    rw [bind_apply, hn]
    dsimp only
    rw [bind_apply, hread]
  | branch hk =>
    rw [behaviour, hk]
    dsimp only
    rw [bind_apply, readCondition_apply, hread]
  | loopCondition hk =>
    rw [behaviour_of_whileLoop hk, visitWhileLoop_apply, readCondition_apply, hread]
  | loopStart hk hc =>
    rw [behaviour_of_forLoop hk, visitForLoop_apply, hc]
    dsimp only
    rw [beginLoop, bind_apply, hread]
  | loopEnd hk hc hf =>
    rw [behaviour_of_forLoop hk, visitForLoop_apply, hc]
    dsimp only
    rw [beginLoop, bind_apply, hf]
    dsimp only
    rw [bind_apply, hread]
  | loopStep hk hc hf hl hi hj =>
    obtain ⟨first, hfirst⟩ := Option.isSome_iff_exists.mp hi
    obtain ⟨last, hlast⟩ := Option.isSome_iff_exists.mp hj
    rw [behaviour_of_forLoop hk, visitForLoop_apply, hc]
    dsimp only
    rw [beginLoop, bind_apply, hf]
    dsimp only
    rw [bind_apply, hl]
    simp only [hfirst, hlast]
    rw [bind_apply, hread]

/-- The settings differ at most in what the inputs of the node are connected to. -/
structure SameCourse (setting setting' : Setting) (node : Node) : Prop where
  limit : setting'.config.maxLoopIterations = setting.config.maxLoopIterations
  targets : setting'.graph.targets node = setting.graph.targets node

section

variable {setting' : Setting}

theorem SameCourse.follow (h : SameCourse setting setting' node) (label : Text) :
    setting'.graph.follow node label = setting.graph.follow node label := by
  rw [Graph.follow, Graph.successors, h.targets, Graph.follow, Graph.successors]

theorem SameCourse.successors (h : SameCourse setting setting' node) (pins : List Pin) :
    setting'.graph.successors node pins = setting.graph.successors node pins := by
  rw [Graph.successors, h.targets, Graph.successors]

theorem SameCourse.afterLoopStep_eq (h : SameCourse setting setting' node) (outcome : LoopStep) :
    afterLoopStep setting' node outcome = afterLoopStep setting node outcome := by
  unfold afterLoopStep
  simp only [h.limit, h.follow]

theorem SameCourse.proceed_eq (h : SameCourse setting setting' node) (state : ForState) :
    proceed setting' node state = proceed setting node state := by
  unfold proceed
  simp only [h.limit, h.afterLoopStep_eq]

theorem readCondition_congr
    (h : read setting' node "Condition" s = read setting node "Condition" s) :
    readCondition setting' node s = readCondition setting node s := by
  rw [readCondition_apply, readCondition_apply, h]

theorem beginLoop_congr (hk : node.kind = .forLoop) (hc : s.loops.counting.get? node.id = none)
    (h : ∀ label t, Reads setting node s label t →
      read setting' node label t = read setting node label t) :
    beginLoop setting' node s = beginLoop setting node s := by
  unfold beginLoop
  refine bind_congr (h _ _ (.loopStart hk hc)) fun first t hf => ?_
  refine bind_congr (h _ _ (.loopEnd hk hc hf)) fun last u hl => ?_
  cases hi : first.toInteger? with
  | none => rfl
  | some start =>
    cases hj : last.toInteger? with
    | none => rfl
    | some stop =>
      exact bind_congr (h _ _ (.loopStep hk hc hf hl (by rw [hi]; rfl) (by rw [hj]; rfl)))
        fun _ _ _ => rfl

/-- What a visit does depends on no input but those that it comes to read. -/
theorem behaviour_eq_of_reads (hcourse : SameCourse setting setting' node)
    (h : ∀ label t, Reads setting node s label t →
      read setting' node label t = read setting node label t) :
    behaviour setting' node s = behaviour setting node s := by
  unfold behaviour
  simp only [hcourse.follow, hcourse.successors]
  cases hk : node.kind with
  | printString => exact bind_congr (h _ _ (.print hk)) fun _ _ _ => rfl
  | setVariable =>
    refine bind_congr rfl fun name t hn => ?_
    cases name with
    | none => rfl
    | some name => exact bind_congr (h _ _ (.assigned hk hn)) fun _ _ _ => rfl
  | branch => exact bind_congr (readCondition_congr (h _ _ (.branch hk))) fun _ _ _ => rfl
  | forLoop =>
    dsimp only
    rw [visitForLoop_apply, visitForLoop_apply, hcourse.follow]
    simp only [hcourse.proceed_eq]
    cases hc : s.loops.counting.get? node.id with
    | some state => rfl
    | none => rw [beginLoop_congr hk hc h]
  | whileLoop =>
    dsimp only
    rw [visitWhileLoop_apply, visitWhileLoop_apply, hcourse.limit,
      readCondition_congr (h _ _ (.loopCondition hk))]
    simp only [hcourse.afterLoopStep_eq]
  | _ => rfl

end

theorem fresh_eq_ok {config : Config} (h : fresh config = .ok s) :
    ∃ generator, s = { evaluation := { generator } } := by
  obtain ⟨generator, -, rfl⟩ := Except.exists_of_map_eq_ok h
  exact ⟨generator, rfl⟩

theorem Begins.eq (h : Begins setting s) : ∃ generator, ∃ entry ∈ setting.graph.nodes,
    s = { evaluation := { generator }, queue := [entry] } := by
  obtain ⟨s₀, entry, hs, he, rfl⟩ := h
  obtain ⟨generator, rfl⟩ := fresh_eq_ok hs
  exact ⟨generator, entry, List.mem_of_mem_filter (List.mem_of_mem_head? he), rfl⟩

theorem Begins.inGraph (h : Begins setting s) : InGraph setting s.queue := by
  obtain ⟨generator, entry, hn, rfl⟩ := h.eq
  intro m hm
  rw [List.mem_singleton.mp hm]
  exact hn

theorem Begins.loops (h : Begins setting s) : s.loops = {} := by
  obtain ⟨generator, entry, -, rfl⟩ := h.eq
  rfl

theorem Begins.consistent (h : Begins setting s) (hg : setting.graph.Acyclic) :
    Consistent (s.scene setting) hg (fun _ => True) s.evaluation := by
  obtain ⟨generator, entry, -, rfl⟩ := h.eq
  exact consistent_of_empty rfl rfl

/-- A run reads the values at the variables and loops as they are, where the results that take part
have been kept under the same indices only. -/
theorem read_eq_labelValue (hg : setting.graph.Acyclic) (hr : setting.graph.RandomFree)
    (hl : setting.Limited) (hs : Begins setting s) {n : Nat} {label : Text}
    (ht : ReadsAfter setting s n node label t)
    (hset : ∀ m, setting.graph.FlowsInto m node label →
      Settled setting (fun i => drain setting i s) n m) :
    (read setting node label t).1 = labelValue (t.scene setting) hg node label := by
  obtain ⟨queue, -, hreads⟩ := ht
  have hv (i : Nat) : Visited setting (drain setting i s) (drain setting (i + 1) s) := by
    rw [drain_succ]
    exact visited_step hr hl (inGraph_drain hs.inGraph i)
  have hn := consistent_history hv (hs.consistent hg) n
  have hgood : ∀ m k, setting.graph.Feeds m k →
      SettledBelow setting (fun i => drain setting i s) n k →
      SettledBelow setting (fun i => drain setting i s) n m := fun _ _ hf h => h.of_feeds hf
  have hread := hreads.reading hr
  have hc := hread.consistent hg _ hgood (Alike.consistent ⟨rfl, rfl, rfl, rfl, rfl⟩ hn)
  refine (inputValue_answers hr hgood hc node label).value ?_
  intro pin hp source out ho hi k hk
  obtain ⟨he, -⟩ := immediate?_eq_none_iff.mp hi
  exact hset k ⟨pin, source, out, hp, ho, he, hk⟩

end

namespace Sample

def entry : Node :=
  { id := "entry", kind := .beginPlay, outputs := [⟨"then", "entry", "", .exec, .output⟩] }

def print (id : Text) : Node :=
  { id
    kind := .printString
    inputs := [⟨"text", id, "In String", .string, .input⟩]
    outputs := [⟨"then", id, "", .exec, .output⟩] }

def literal (v : Value) : Node :=
  { id := "literal"
    kind := .integerLiteral
    outputs := [⟨"value", "literal", "Value", .integer, .output⟩]
    properties := ⟨[("value", v)]⟩ }

def conversion : Node :=
  { id := "conversion"
    kind := .intToFloat
    inputs := [⟨"value", "conversion", "Value", .integer, .input⟩]
    outputs := [⟨"result", "conversion", "Result", .float, .output⟩] }

def setting (graph : Graph) : Setting := { graph, config := { seed := .int 0 } }

def initial : State := { evaluation := { generator := .ofSeed 0 } }

def opening : State := { initial with queue := [entry] }

theorem begins_opening {graph : Graph}
    (h : (graph.nodesOfKind .beginPlay).head? = some entry) : Begins (setting graph) opening :=
  ⟨initial, entry, rfl, h, rfl⟩

end Sample

namespace OutdatedIndex

open Sample

def loop : Node :=
  { id := "loop"
    kind := .forLoop
    outputs := [⟨"body", "loop", "Loop Body", .exec, .output⟩,
      ⟨"index", "loop", "Index", .integer, .output⟩,
      ⟨"completed", "loop", "Completed", .exec, .output⟩]
    properties := ⟨[("start", .int 1), ("end", .int 1), ("step", .int 1)]⟩ }

def negation : Node :=
  { id := "not"
    kind := .booleanNot
    inputs := [⟨"value", "not", "Value", .boolean, .input⟩]
    outputs := [⟨"result", "not", "Result", .boolean, .output⟩] }

def graph : Graph :=
  .ofLists [entry, loop, negation, print "first", print "second", print "last"]
    [⟨"1", "entry", "then", "loop", "in", .exec⟩, ⟨"2", "loop", "index", "not", "value", .integer⟩,
      ⟨"3", "loop", "body", "first", "in", .exec⟩, ⟨"4", "loop", "body", "second", "in", .exec⟩,
      ⟨"5", "loop", "completed", "last", "in", .exec⟩,
      ⟨"6", "not", "result", "first", "text", .boolean⟩,
      ⟨"7", "not", "result", "second", "text", .boolean⟩,
      ⟨"8", "not", "result", "last", "text", .boolean⟩]

theorem acyclic_graph : graph.Acyclic :=
  Graph.acyclic_of_rank (fun id => if id = "not" then 0 else 1) (by decide)

theorem randomFree_graph : graph.RandomFree := by
  unfold Graph.RandomFree
  decide

theorem limited_setting : (setting graph).Limited := rfl

theorem begins_graph : Begins (setting graph) opening := begins_opening rfl

/-- The state in which the visit number `n` begins, with the queue behind its node. -/
def visiting (n : Nat) (queue : List Node) : State :=
  let s := drain (setting graph) n opening
  { s with queue, steps := s.steps + 1 }

/-- After the loop its last index is still read, though it shows zero. -/
theorem read_ne_labelValue_last :
    ∃ hg : graph.Acyclic, graph.RandomFree ∧ (setting graph).Limited ∧
      Begins (setting graph) opening ∧
      ReadsAfter (setting graph) opening 5 (print "last") "In String" (visiting 5 []) ∧
      (read (setting graph) (print "last") "In String" (visiting 5 [])).1 ≠
        labelValue ((visiting 5 []).scene (setting graph)) hg (print "last") "In String" := by
  refine ⟨acyclic_graph, randomFree_graph, limited_setting, begins_graph, ⟨[], rfl, .print rfl⟩, ?_⟩
  have hvalue : labelValue ((visiting 5 []).scene (setting graph)) acyclic_graph (print "last")
      "In String" = .ok (.bool true) := by
    exact @operationValue_eq ((visiting 5 []).scene (setting graph)) acyclic_graph negation _ rfl
  have hread : (read (setting graph) (print "last") "In String" (visiting 5 [])).1 =
      .ok (.bool false) := rfl
  rw [hvalue, hread]
  intro h
  cases h

/-- In the body the second read finds a result, kept under the same index. -/
theorem read_eq_labelValue_second :
    ∃ hg : graph.Acyclic, graph.RandomFree ∧ (setting graph).Limited ∧
      Begins (setting graph) opening ∧
      ReadsAfter (setting graph) opening 3 (print "second") "In String" (visiting 3 [loop]) ∧
      (∀ m, graph.FlowsInto m (print "second") "In String" →
        Settled (setting graph) (fun i => drain (setting graph) i opening) 3 m) ∧
      (read (setting graph) (print "second") "In String" (visiting 3 [loop])).1 =
        labelValue ((visiting 3 [loop]).scene (setting graph)) hg (print "second") "In String" := by
  have hreads : ReadsAfter (setting graph) opening 3 (print "second") "In String"
      (visiting 3 [loop]) := ⟨[loop], rfl, .print rfl⟩
  have hset : ∀ m, graph.FlowsInto m (print "second") "In String" →
      Settled (setting graph) (fun i => drain (setting graph) i opening) 3 m := by
    intro m _ i hi hgen _ f _
    match i with
    | 0 | 1 => exact absurd hgen (by decide)
    | 2 | 3 => rfl
    | i + 4 => omega
  exact ⟨acyclic_graph, randomFree_graph, limited_setting, begins_graph, hreads, hset,
    read_eq_labelValue acyclic_graph randomFree_graph limited_setting begins_graph hreads hset⟩

end OutdatedIndex

end Run

end NodeScript
