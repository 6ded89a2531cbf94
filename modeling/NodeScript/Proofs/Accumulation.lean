import NodeScript.Graph.Builder
import NodeScript.Proofs.Execution

namespace NodeScript

open Evaluation

/-- A graph in which a variable is set to zero before `loop`; the body of the loop is `update`,
which sets the variable to what comes from `sum`. -/
structure Accumulation (name : Text) where
  graph : Graph
  loop : Node
  update : Node
  sum : Origin
  leadsIn : graph.LeadsIn name loop
  body : graph.follow loop Run.loopBody = [update]
  assigns : graph.Assigns update name sum
  after_update : graph.follow update "" = []

namespace Accumulation

open Run

section

variable {name : Text} (L : Accumulation name) (value : Nat → Int) (loops : Nat → Loops)

def setting (config : Config) : Setting := { graph := L.graph, config }

def atLoop (k : Nat) (e : Evaluation.State) : Run.State where
  bindings := ⟨[(name, .int (value k))]⟩
  loops := loops k
  evaluation := e
  queue := [L.loop]
  steps := 2 * k + 2

def atBody (k : Nat) (e : Evaluation.State) : Run.State where
  bindings := ⟨[(name, .int (value k))]⟩
  loops := loops (k + 1)
  evaluation := e
  queue := [L.update, L.loop]
  steps := 2 * k + 3

/-- After `k` iterations the loop begins another one, in which the body finds the next value. -/
structure Iterates (config : Config) (k : Nat) : Prop where
  enters : ∀ e : Evaluation.State, e.Blank → ∃ e' : Evaluation.State, e'.Blank ∧
    e'.trace = e.trace ∧
    step (L.setting config) (L.atLoop value loops k e) = L.atBody value loops k e'
  supplies : ∀ e : Evaluation.State, e.Blank →
    Supplies ((L.atBody value loops k e).scene (L.setting config)) e L.sum (.int (value (k + 1)))

variable {L value loops} {config : Config} {k : Nat} {e : Evaluation.State} {s : Run.State}

theorem Iterates.step_atBody (h : L.Iterates value loops config k) (he : e.Blank) :
    ∃ e' : Evaluation.State, e'.Blank ∧ e'.trace = e.trace ∧
      step (L.setting config) (L.atBody value loops k e) = L.atLoop value loops (k + 1) e' := by
  obtain ⟨e', hblank, htrace, hstep⟩ :=
    step_of_assigns (L.setting config) (s := L.atBody value loops k e) L.assigns rfl
      (h.supplies e he) he
  refine ⟨e', hblank, htrace, ?_⟩
  have hnext : (L.setting config).graph.follow L.update "" = [] := L.after_update
  have hbindings := OrderedMap.insert_insert_self {} name (Value.int (value k))
    (Value.int (value (k + 1)))
  rw [hstep, hnext]
  exact congrArg (fun bindings => { L.atLoop value loops (k + 1) e' with bindings }) hbindings

theorem drain_atLoop (h : ∀ j < k, L.Iterates value loops config j) (hzero : value 0 = 0)
    (hloops : loops 0 = {}) (hs : fresh config = .ok s) :
    ∃ e : Evaluation.State, e.Blank ∧ e.trace = {} ∧
      drain (L.setting config) (2 * k + 2) (opened (L.setting config) s) =
        L.atLoop value loops k e := by
  induction k with
  | zero =>
    obtain ⟨e, he, htrace, hd⟩ := drain_two (L.setting config) L.leadsIn hs
    refine ⟨e, he, htrace, ?_⟩
    rw [atLoop, hzero, hloops]
    exact hd
  | succ k ih =>
    obtain ⟨e, he, htrace, hd⟩ := ih fun j hj => h j (by omega)
    have hk := h k (by omega)
    obtain ⟨e₁, he₁, htrace₁, hloop⟩ := hk.enters e he
    obtain ⟨e₂, he₂, htrace₂, hbody⟩ := hk.step_atBody he₁
    refine ⟨e₂, he₂, htrace₂.trans (htrace₁.trans htrace), ?_⟩
    rw [Nat.mul_succ, drain_succ, drain_succ, hd, hloop, hbody]

end

namespace Standard

def zero : Node := makeNode .integerLiteral "zero" { properties := [("value", .int 0)] }

def init (name : Text) : Node :=
  makeNode .setVariable "init" { properties := [("name", .text name)] }

def current (name : Text) : Node :=
  makeNode .getVariable "current" { properties := [("name", .text name)] }

def sum : Node := makeNode .addInteger "sum" {}

def update (name : Text) : Node :=
  makeNode .setVariable "update" { properties := [("name", .text name)] }

def nodes (name : Text) (loop : Node) (others : List Node) : List Node :=
  [makeNode .beginPlay "entry" {}, zero, init name, current name, sum, update name, loop] ++ others

def wires (others : List Wire) : List Wire :=
  [⟨"1", "zero", "zero_OUTPUT_Value_0", "init", "init_INPUT_Value_1", .integer⟩,
    ⟨"2", "entry", "entry_OUTPUT_EXEC_0", "init", "init_INPUT_EXEC_0", .exec⟩,
    ⟨"3", "init", "init_OUTPUT_EXEC_0", "loop", "loop_INPUT_EXEC_0", .exec⟩,
    ⟨"4", "current", "current_OUTPUT_Value_0", "sum", "sum_INPUT_A_0", .integer⟩,
    ⟨"5", "sum", "sum_OUTPUT_Result_0", "update", "update_INPUT_Value_1", .integer⟩,
    ⟨"6", "loop", "loop_OUTPUT_Loop Body_0", "update", "update_INPUT_EXEC_0", .exec⟩] ++ others

def graph (name : Text) (loop : Node) (others : List Node) (more : List Wire) : Graph :=
  .ofLists (nodes name loop others) (wires more)

/-- The outputs behind which nothing but `wires` leads. -/
def taken : List PinKey :=
  [("entry", "entry_OUTPUT_EXEC_0"), ("init", "init_OUTPUT_EXEC_0"),
    ("loop", "loop_OUTPUT_Loop Body_0"), ("update", "update_OUTPUT_EXEC_0")]

/-- The loop and what is added to the graph leave the wires to the loop and its body alone. -/
structure Fits (name : Text) (loop : Node) (others : List Node) (more : List Wire) : Prop where
  named : Text.isBlankText name = false
  loop_id : loop.id = "loop"
  body : loop.execOutputsLabelled loopBody =
    [⟨"loop_OUTPUT_Loop Body_0", "loop", "Loop Body", .exec, .output⟩]
  nodup : ((nodes name loop others).map Node.id).Nodup
  kinds : NodeKind.beginPlay ∉ (loop :: others).map Node.kind
  apart : ∀ w ∈ more, w.source ∉ taken

namespace Fits

variable {name : Text} {loop : Node} {others : List Node} {more : List Wire}

theorem mem_graph (h : Fits name loop others more) {n : Node} (hn : n ∈ nodes name loop others) :
    n ∈ (graph name loop others more).nodes := by
  rwa [graph, Graph.nodes_ofLists _ h.nodup]

theorem find?_loop (h : Fits name loop others more) :
    (nodes name loop others).find? (·.id = ("loop" : Text)) = some loop := by
  have hloop : (loop :: others).find? (·.id = ("loop" : Text)) = some loop := by
    simp [h.loop_id]
  exact hloop

theorem follow_eq (h : Fits name loop others more) {node : Node} {out : Pin} {label : Text}
    (key : PinKey) (hout : node.execOutputsLabelled label = [out])
    (hkey : (node.id, out.id) = key) (htaken : key ∈ taken) :
    (graph name loop others more).follow node label =
      ((wires []).filter (·.source = key)).filterMap fun w =>
        (nodes name loop others).find? (·.id = w.toNode) := by
  have hmore : more.filter (·.source = key) = [] := by
    rw [List.filter_eq_nil_iff]
    intro w hw hsource
    exact h.apart w hw (of_decide_eq_true hsource ▸ htaken)
  rw [graph, Graph.follow_ofLists, hout, List.flatMap_singleton, hkey, wires, List.filter_append,
    hmore, List.append_nil]
  rfl

theorem nodesOfKind_beginPlay (h : Fits name loop others more) :
    (graph name loop others more).nodesOfKind .beginPlay = [makeNode .beginPlay "entry" {}] := by
  have hothers : (loop :: others).filter (·.kind = .beginPlay) = [] := by
    rw [List.filter_eq_nil_iff]
    intro n hn hkind
    exact h.kinds (List.mem_map.mpr ⟨n, hn, of_decide_eq_true hkind⟩)
  rw [graph, Graph.nodesOfKind_ofLists _ h.nodup]
  exact congrArg (makeNode .beginPlay "entry" {} :: ·) hothers

theorem leadsIn (h : Fits name loop others more) :
    (graph name loop others more).LeadsIn name loop := by
  have hassigns : (graph name loop others more).Assigns (init name) name
      (.output zero ⟨"zero_OUTPUT_Value_0", "zero", "Value", .integer, .output⟩) := by
    refine ⟨rfl, rfl, h.named, ?_⟩
    simp only [graph, labelOrigin, origin_ofLists]
    rfl
  refine .intro h.nodesOfKind_beginPlay ?_ hassigns
    (.intro (h.mem_graph (by simp [nodes])) rfl rfl rfl rfl) ?_
  · rw [h.follow_eq ("entry", "entry_OUTPUT_EXEC_0") rfl rfl (by decide)]
    rfl
  · rw [h.follow_eq ("init", "init_OUTPUT_EXEC_0") rfl rfl (by decide)]
    exact List.filterMap_cons_some h.find?_loop

end Fits

end Standard

def standard {name : Text} {loop : Node} {others : List Node} {more : List Wire}
    (h : Standard.Fits name loop others more) : Accumulation name where
  graph := Standard.graph name loop others more
  loop
  update := Standard.update name
  sum := .output Standard.sum ⟨"sum_OUTPUT_Result_0", "sum", "Result", .integer, .output⟩
  leadsIn := h.leadsIn
  body := by
    rw [h.follow_eq _ h.body (by rw [h.loop_id]) (by decide)]
    rfl
  assigns := by
    refine ⟨rfl, rfl, h.named, ?_⟩
    simp only [Standard.graph, labelOrigin, origin_ofLists]
    rfl
  after_update := by
    rw [h.follow_eq ("update", "update_OUTPUT_EXEC_0") rfl rfl (by decide)]
    rfl

end Accumulation

end NodeScript
