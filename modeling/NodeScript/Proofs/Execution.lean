import NodeScript.Proofs.Containment
import NodeScript.Proofs.Report

/-!
Runs carried out visit by visit. The value of an output is computed from what the origins of its
node's inputs supply, and where no result of the current generation is known, the values, the trace
and the next state can be told exactly. Every change of a variable and every iteration of a loop
begin a new generation, so that a run comes back to such a state after each of them.
-/

namespace NodeScript

namespace Evaluation

section

variable {scene : Scene} {s t : State} {node : Node} {pin : Pin}

def supply (scene : Scene) (s : State) : Origin → Except Fault Value × State
  | .value v => (.ok v, s)
  | .output source out => output scene s source out

/-- The origin of a node's input by label; a missing pin is like an unwired one. -/
def labelOrigin (g : Graph) (node : Node) (label : Text) : Origin :=
  match node.inputPin? label with
  | none => .value (fallback node label)
  | some pin => origin g node pin

theorem inputValue_eq_supply (scene : Scene) (s : State) (node : Node) (label : Text) :
    inputValue scene s node label = supply scene s (labelOrigin scene.graph node label) := by
  rw [inputValue, labelOrigin]
  cases node.inputPin? label with
  | none => rfl
  | some pin =>
    dsimp only
    rw [input_eq]
    cases origin scene.graph node pin <;> rfl

def sources (g : Graph) (node : Node) : List (Text × Origin) :=
  node.dataInputs.map fun pin => (pin.label, origin g node pin)

def supplyAll (scene : Scene) :
    List (Text × Origin) → Inputs → State → Except Fault Inputs × State
  | [], inputs, s => (.ok inputs, s)
  | (label, source) :: rest, inputs, s =>
    match supply scene s source with
    | (.ok v, s) => supplyAll scene rest (inputs.insert label v) s
    | (.error fault, s) => (.error fault, s)

theorem supplyAll_of_gather {depth : Nat} (hd : depth ≤ Recursive.depthBound scene.graph)
    {pins : List Pin} {inputs : Inputs} {gathered : Except Fault Inputs × State}
    (h : Recursive.gather scene (Recursive.output scene depth) node pins inputs s =
      some gathered) :
    supplyAll scene (pins.map fun pin => (pin.label, origin scene.graph node pin)) inputs s =
      gathered := by
  induction pins generalizing inputs s with
  | nil => exact Option.some.inj h
  | cons pin pins ih =>
    rw [Recursive.gather_cons] at h
    rw [List.map_cons, supplyAll]
    cases ho : origin scene.graph node pin with
    | value v =>
      rw [ho] at h
      exact ih h
    | output source out =>
      rw [ho] at h
      dsimp only at h
      cases he : Recursive.output scene depth s source out with
      | none => simp [he] at h
      | some answer =>
        obtain ⟨r, u⟩ := answer
        rw [he] at h
        rw [supply, output_eq_of_recursive (mem_nodes_of_origin ho) hd he]
        cases r with
        | ok v => exact ih h
        | error fault => exact Option.some.inj h

/-- An operation that is due runs on what the origins of its node's inputs supply. -/
theorem output_of_due (hn : node ∈ scene.graph.nodes)
    (hr : ready scene s node pin = (.due, s)) :
    output scene s node pin =
      Recursive.complete node pin
        (supplyAll scene (sources scene.graph node) (ownInputs node) (s.mark node.id)) := by
  have hrec := recursive_eq_some_output s hn pin
  generalize output scene s node pin = answer at hrec ⊢
  obtain ⟨r, u⟩ := answer
  obtain hknown | ⟨-, d, hd, gathered, hg, hc⟩ := Recursive.output_cases hrec
  · rw [hr] at hknown
    cases r <;> cases hknown
  · have hle : d ≤ Recursive.depthBound scene.graph := by omega
    have hs : supplyAll scene (sources scene.graph node) (ownInputs node) (s.mark node.id) =
        gathered := supplyAll_of_gather hle hg
    rw [hs, hc]

theorem output_of_immediate {r : Except Fault Value} (h : immediate? scene node pin = some r) :
    output scene s node pin = (r, s) := by
  rw [output, ready_of_immediate h]
  cases r <;> rfl

theorem output_of_operation {f : Inputs → Except Stop Value} {inputs : Inputs} {v : Value}
    (hn : node ∈ scene.graph.nodes) (hp : pin.isExec = false)
    (hk : node.kind.operation? = some (.plain f)) (hcached : s.cached? (node.id, pin.id) = none)
    (hfree : node.id ∉ s.inProgress)
    (hs : supplyAll scene (sources scene.graph node) (ownInputs node) (s.mark node.id) =
      (.ok inputs, t))
    (hf : f inputs = .ok v) :
    output scene s node pin = (.ok v, (t.unmark node.id).store (node.id, pin.id) v) := by
  have hi : immediate? scene node pin = none := immediate?_eq_none_iff.mpr ⟨hp, by simp [hk]⟩
  have hm : remembered? scene s node pin = none := by simp [remembered?, hcached]
  have hr : ready scene s node pin = (.due, s) := by
    rw [ready_of_operation hi, hm]
    simp [hfree]
  rw [output_of_due hn hr, hs]
  simp [Recursive.complete, compute, Frame.start, hk, Operation.plain, hf, Except.map]

end

inductive Origin.ReadsVariable (name : Text) : Origin → Prop
  | intro {node : Node} {pin : Pin} (kind : node.kind = .getVariable) (data : pin.isExec = false)
    (hname : node.properties.get? "name" = some (.text name)) :
    ReadsVariable name (.output node pin)

end Evaluation

open Evaluation

inductive Graph.Literal (g : Graph) (v : Value) : Origin → Prop
  | intro {node : Node} {pin : Pin} (mem : node ∈ g.nodes) (kind : node.kind = .integerLiteral)
    (data : pin.isExec = false) (hsources : sources g node = [])
    (hvalue : (Value.record node.properties.entries).field? "value" = some v) :
    Literal g v (.output node pin)

inductive Graph.Applies (g : Graph) (k : NodeKind) (a b : Origin) : Origin → Prop
  | intro {node : Node} {pin : Pin} (mem : node ∈ g.nodes) (kind : node.kind = k)
    (data : pin.isExec = false)
    (hsources : sources g node = [(("A" : Text), a), (("B" : Text), b)]) :
    Applies g k a b (.output node pin)

structure Graph.CountsBetween (g : Graph) (node : Node) (start last step : Int) : Prop where
  kind : node.kind = .forLoop
  start_eq : labelOrigin g node "Start" = .value (.int start)
  last_eq : labelOrigin g node "End" = .value (.int last)
  step_eq : labelOrigin g node "Step" = .value (.int step)
  step_ne_zero : step ≠ 0

structure Graph.Assigns (g : Graph) (node : Node) (name : Text) (source : Origin) : Prop where
  kind : node.kind = .setVariable
  name_eq : node.properties.get? "name" = some (.text name)
  not_blank : Text.isBlankText name = false
  value : labelOrigin g node "Value" = source

/-- The entry node leads to a node that sets a variable to zero, and that node leads to `loop`. -/
inductive Graph.LeadsIn (g : Graph) (name : Text) (loop : Node) : Prop
  | intro {entry init : Node} {zero : Origin} (entries : g.nodesOfKind .beginPlay = [entry])
    (after_entry : g.follow entry "" = [init]) (assigns : g.Assigns init name zero)
    (literal : g.Literal (.int 0) zero) (after_init : g.follow init "" = [loop]) :
    LeadsIn g name loop

namespace Evaluation

section

variable {scene : Scene} {s t : State} {node : Node} {pin : Pin}

/-- The origin supplies the value, and nothing is written. -/
def Supplies (scene : Scene) (s : State) (source : Origin) (v : Value) : Prop :=
  ∃ t, supply scene s source = (.ok v, t) ∧ t.trace = s.trace

theorem supply_variable {source : Origin} {name : Text} (h : source.ReadsVariable name) :
    supply scene s source = (.ok ((scene.bindings.get? name).getD .null), s) := by
  obtain ⟨kind, data, hname⟩ := h
  have hd : NodeKind.getVariable.isData = true := rfl
  apply output_of_immediate
  simp [immediate?, kind, data, hd, variableValue, hname, Value.plain, Except.map]

theorem supply_index (hk : node.kind = .forLoop) (hp : pin.isExec = false) :
    supply scene s (.output node pin) = (.ok (.int (scene.loops.currentIndex node.id)), s) := by
  have hd : NodeKind.forLoop.isData = true := rfl
  apply output_of_immediate
  simp [immediate?, hk, hp, hd]

/-- The origin supplies the value whenever there are no results and no literal is in progress. -/
def Provides (scene : Scene) (source : Origin) (v : Value) : Prop :=
  ∀ s : State, (∀ key, s.cached? key = none) →
    (∀ m ∈ scene.graph.nodes, m.kind = .integerLiteral → m.id ∉ s.inProgress) →
    Supplies scene s source v

theorem provides_of_supply {source : Origin} {v : Value}
    (h : ∀ s, supply scene s source = (.ok v, s)) : Provides scene source v :=
  fun s _ _ => ⟨s, h s, rfl⟩

theorem provides_literal {source : Origin} {v : Value} (h : scene.graph.Literal v source) :
    Provides scene source v := by
  intro s hcached hfree
  obtain ⟨mem, kind, data, hsources, hvalue⟩ := h
  rename_i node pin
  have hs : supplyAll scene (sources scene.graph node) (ownInputs node) (s.mark node.id) =
      (.ok (ownInputs node), s.mark node.id) := by
    rw [hsources]
    rfl
  have hk : node.kind.operation? = some Operation.stored := by rw [kind]; rfl
  refine ⟨_, output_of_operation mem data hk (hcached _) (hfree node mem kind) hs ?_, rfl⟩
  have hown : (ownInputs node).value Inputs.propertiesLabel =
      .record node.properties.entries := rfl
  rw [hown, hvalue]
  rfl

/-- An operation on two operands, the first of which is read off the state of the run. -/
theorem supplies_operation {k : NodeKind} {a b source : Origin} {x y v : Value}
    {f : Inputs → Except Stop Value} (h : scene.graph.Applies k a b source)
    (hk : k.operation? = some (.plain f)) (hl : k ≠ .integerLiteral)
    (hcached : ∀ key, s.cached? key = none) (hidle : s.inProgress = [])
    (ha : ∀ t, supply scene t a = (.ok x, t))
    (hb : Provides scene b y)
    (hf : ∀ i : Inputs, f ((i.insert "A" x).insert "B" y) = .ok v) : Supplies scene s source v := by
  obtain ⟨mem, kind, data, hsources⟩ := h
  rename_i node pin
  have hfree : ∀ m ∈ scene.graph.nodes, m.kind = .integerLiteral →
      m.id ∉ (s.mark node.id).inProgress := by
    intro m hm hliteral hin
    have hid : m.id = node.id := by simpa [hidle] using hin
    rw [Graph.eq_of_id_eq hm mem hid, kind] at hliteral
    exact hl hliteral
  obtain ⟨t, ht, htrace⟩ := hb (s.mark node.id) hcached hfree
  have hs : supplyAll scene (sources scene.graph node) (ownInputs node) (s.mark node.id) =
      (.ok (((ownInputs node).insert "A" x).insert "B" y), t) := by
    simp [hsources, supplyAll, ha, ht]
  have hnot : node.id ∉ s.inProgress := by simp [hidle]
  rw [← kind] at hk
  exact ⟨_, output_of_operation mem data hk (hcached _) hnot hs (hf _), htrace⟩

end

/-- No node is in progress and no result of the current generation is known. -/
structure State.Blank (s : State) : Prop where
  idle : s.inProgress = []
  stamped : s.Stamped
  cached?_eq_none : ∀ key, s.cached? key = none

theorem State.blank_of_empty {s : State} (hp : s.inProgress = []) (hc : s.cache = {}) :
    s.Blank := by
  have hnone (key : PinKey) : s.cache.get? key = none := by rw [hc, OrderedMap.get?_empty]
  refine ⟨hp, ?_, ?_⟩
  · intro key n v h
    simp [hnone] at h
  · intro key
    simp [cached?, hnone]

theorem State.Blank.not_mem {s : State} (h : s.Blank) (id : Text) : id ∉ s.inProgress := by
  simp [h.idle]

/-- After whatever has been read, a new generation begins without results. -/
theorem State.Blank.bump_inputValue {s : State} (h : s.Blank) (scene : Scene) (node : Node)
    (label : Text) : (inputValue scene s node label).2.bump.Blank := by
  have hstamped := (contemporary_inputValue scene s node label).2 h.stamped
  have hidle : (inputValue scene s node label).2.inProgress = s.inProgress := by
    apply inputValue_preserves (R := fun s t => t.inProgress = s.inProgress) (fun _ => rfl)
    intro node hn s pin
    exact Recursive.inProgress_output (recursive_eq_some_output s hn pin)
  exact ⟨hidle.trans h.idle, hstamped.bump, hstamped.cached?_bump⟩

theorem State.Blank.bump {s : State} (h : s.Blank) : s.bump.Blank :=
  ⟨h.idle, h.stamped.bump, h.stamped.cached?_bump⟩

section

variable {scene : Scene} {s : State} {a b source : Origin} {m n : Int}

theorem operands_of_bound {α : Type} (read : Value → Option α) {x y : Value} {p q : α}
    (hx : read x = some p) (hy : read y = some q) (fallback : Value) (i : Inputs) :
    Operation.operands read fallback ((i.insert "A" x).insert "B" y) = .ok (p, q) := by
  have ha : Inputs.value ((i.insert "A" x).insert "B" y) "A" = x := by
    rw [Inputs.value_insert_of_ne _ (by decide), Inputs.value_insert_self]
  have hb : Inputs.value ((i.insert "A" x).insert "B" y) "B" = y := Inputs.value_insert_self _ _ _
  exact Operation.operands_eq_ok_iff.mpr ⟨by rw [ha, hx], by rw [hb, hy]⟩

theorem supplies_add (h : scene.graph.Applies .addInteger a b source) (hs : s.Blank)
    (ha : ∀ t, supply scene t a = (.ok (.int m), t))
    (hb : Provides scene b (.int n)) :
    Supplies scene s source (.int (m + n)) := by
  apply supplies_operation h rfl (by decide) hs.cached?_eq_none hs.idle ha hb
  intro i
  have hbound := operands_of_bound Value.toInteger? (x := .int m) (y := .int n) rfl rfl (.int 0) i
  dsimp only
  rw [hbound]
  rfl

theorem supplies_lessThan (h : scene.graph.Applies .lessThanInteger a b source) (hs : s.Blank)
    (ha : ∀ t, supply scene t a = (.ok (.int m), t))
    (hb : Provides scene b (.int n)) :
    Supplies scene s source (.bool (m < n)) := by
  apply supplies_operation h rfl (by decide) hs.cached?_eq_none hs.idle ha hb
  intro i
  have hbound :=
    operands_of_bound Value.toNumber? (x := .int m) (y := .int n) rfl rfl (.bool false) i
  rw [hbound]
  rfl

end

end Evaluation

def Loops.counted (id : Text) (start last step : Int) : Nat → Loops
  | 0 => {}
  | k + 1 => startFor {} id (.after start last step (k + 1))

def Loops.repeated (id : Text) : Nat → Loops
  | 0 => {}
  | k + 1 => setWhile {} id (k + 1)

theorem Loops.setWhile_repeated (id : Text) (k n : Nat) :
    (repeated id k).setWhile id n = setWhile {} id n := by
  cases k with
  | zero => rfl
  | succ k => exact setWhile_setWhile {} id (k + 1) n

theorem Loops.iterations_repeated (id : Text) (k : Nat) : (repeated id k).iterations id = k := by
  cases k with
  | zero => rfl
  | succ k => exact iterations_setWhile_self {} id (k + 1)

def LoopStep.leaving (cut : Bool) : LoopStep := if cut then .aborted else .completed

def Trace.endLoop (t : Trace) (node : Node) (limit : Value) (shown : Text) (cut : Bool) : Trace :=
  if cut then t.report (.loopLimit node limit shown) else t

theorem Trace.lines_endLoop (t : Trace) (node : Node) (limit : Value) (shown : Text) (cut : Bool) :
    (t.endLoop node limit shown cut).lines =
      t.lines ++ if cut then [Cause.line (.loopLimit node limit shown)] else [] := by
  cases cut <;> simp [endLoop, lines, report, append, Entry.line]

theorem Decimal.numeral_eq_toString (n : Int) : numeral n = toString n := by
  cases n with
  | ofNat m =>
    have h : ¬Int.ofNat m < 0 := by simp
    rw [numeral, if_neg h]
    rfl
  | negSucc m =>
    have htext : toString (Int.negSucc m) = "-" ++ Nat.repr (m + 1) := rfl
    rw [numeral, if_pos (Int.negSucc_lt_zero m), htext, ← String.toList_inj]
    simp [natDigits, Nat.repr]

theorem Value.integerText_of_short {n : Int} (h : Decimal.Short n) :
    integerText n = .ok (toString n) := by
  unfold Decimal.Short at h
  unfold integerText Decimal.numeral?
  rw [if_pos h, Decimal.numeral_eq_toString]

theorem Value.plain_int {n : Int} (h : Decimal.Short n) :
    (Value.int n).plain = .ok (toString n : Text) := by
  have hplain : (Value.int n).plain = (integerText n).map fun (t : String) => (t : Text) := rfl
  rw [hplain, integerText_of_short h]
  rfl

theorem Variables.listing_int {n : Int} (h : Decimal.Short n) (name : Text) :
    Variables.listing ⟨[(name, .int n)]⟩ =
      .ok ["  " ++ name ++ ": " ++ (toString n : Text)] := by
  have hliteral : (Value.int n).literal = .ok (toString n : Text) := by
    simp [Value.literal, Value.innerLiteral, Value.integerText_of_short h, Except.map]
  simp [listing, lines, line, hliteral, bind, Except.bind, pure, Except.pure]

namespace Run

open Evaluation

variable {setting : Setting} {node : Node} {s t : State}

theorem read_of_value {label : Text} {v : Value}
    (h : labelOrigin setting.graph node label = .value v) :
    read setting node label s = (.ok v, s) := by
  have hinput := inputValue_eq_supply (s.scene setting) s.evaluation node label
  have ho : labelOrigin (s.scene setting).graph node label = .value v := h
  rw [ho] at hinput
  rw [read, hinput]
  rfl

theorem read_of_supplies (setting : Setting) {label : Text} {source : Origin} {v : Value}
    (h : labelOrigin setting.graph node label = source)
    (hv : Supplies (s.scene setting) s.evaluation source v) (hs : s.evaluation.Blank) :
    ∃ e : Evaluation.State, read setting node label s = (.ok v, { s with evaluation := e }) ∧
      e.trace = s.evaluation.trace ∧ e.bump.Blank := by
  obtain ⟨e, he, htrace⟩ := hv
  have hblank := hs.bump_inputValue (s.scene setting) node label
  have hinput : inputValue (s.scene setting) s.evaluation node label = (.ok v, e) := by
    rw [inputValue_eq_supply]
    exact h ▸ he
  rw [hinput] at hblank
  refine ⟨e, ?_, htrace, hblank⟩
  rw [read, hinput]

theorem step_of_behaviour {queue next : List Node} (hq : s.queue = node :: queue)
    (hb : behaviour setting node { s with queue, steps := s.steps + 1 } = (.ok next, t)) :
    step setting s = { t with queue := t.queue ++ next } := by
  rw [step, hq]
  simp [visit, ExceptT.run, hb]

theorem behaviour_of_beginPlay (hk : node.kind = .beginPlay) :
    behaviour setting node s = (.ok (setting.graph.follow node ""), s) := by
  rw [behaviour, hk]
  rfl

theorem variableName_of_assigns {name : Text} {source : Origin}
    (h : setting.graph.Assigns node name source) : variableName node s = (.ok (some name), s) := by
  have hplain : (Value.text name).plain = .ok name := rfl
  simp only [variableName, h.name_eq, Option.getD_some]
  have hlift : (liftM (Except.ok name : Except Fault Text) : Action Text) s = (.ok name, s) := rfl
  have hnamed : ¬Text.isBlankText name = true := by simp [h.not_blank]
  rw [bind_apply, hplain, hlift]
  dsimp only
  rw [if_neg hnamed]
  rfl

theorem behaviour_of_assigns (setting : Setting) {name : Text} {source : Origin} {v : Value}
    (h : setting.graph.Assigns node name source)
    (hv : Supplies (s.scene setting) s.evaluation source v) (hs : s.evaluation.Blank) :
    ∃ e : Evaluation.State, e.Blank ∧ e.trace = s.evaluation.trace ∧
      behaviour setting node s =
        (.ok (setting.graph.follow node ""),
          { s with bindings := s.bindings.insert name v, evaluation := e }) := by
  obtain ⟨e, hread, htrace, hblank⟩ := read_of_supplies setting h.value hv hs
  refine ⟨e.bump, hblank, htrace, ?_⟩
  rw [behaviour, h.kind]
  dsimp only
  rw [bind_apply, variableName_of_assigns h]
  dsimp only
  rw [bind_apply, hread]
  rfl

theorem step_of_assigns (setting : Setting) {name : Text} {source : Origin} {v : Value}
    {queue : List Node} (h : setting.graph.Assigns node name source)
    (hq : s.queue = node :: queue) (hv : Supplies (s.scene setting) s.evaluation source v)
    (hs : s.evaluation.Blank) :
    ∃ e : Evaluation.State, e.Blank ∧ e.trace = s.evaluation.trace ∧
      step setting s =
        { s with
          bindings := s.bindings.insert name v
          evaluation := e
          queue := queue ++ setting.graph.follow node ""
          steps := s.steps + 1 } := by
  obtain ⟨e, hblank, htrace, hb⟩ :=
    behaviour_of_assigns setting (s := { s with queue, steps := s.steps + 1 }) h hv hs
  exact ⟨e, hblank, htrace, step_of_behaviour hq hb⟩

theorem behaviour_of_printString (setting : Setting) {text : Text} (hk : node.kind = .printString)
    (ho : labelOrigin setting.graph node "In String" = .value (.text text)) :
    behaviour setting node s =
      (.ok (setting.graph.follow node ""),
        { s with evaluation := { s.evaluation with trace := s.trace.print text } }) := by
  rw [behaviour, hk]
  dsimp only
  rw [bind_apply, read_of_value ho]
  rfl

theorem beginLoop_of_countsBetween {start last step : Int}
    (h : setting.graph.CountsBetween node start last step) :
    beginLoop setting node s = (.ok (some (.start start last step)), s) := by
  have hstep : givenStep? (.int step) = some step := by
    simp [givenStep?, Value.toInteger?, Value.toNumber?, Number.truncate, h.step_ne_zero]
  have hinteger (n : Int) : (Value.int n).toInteger? = some n := rfl
  unfold beginLoop
  rw [bind_apply, read_of_value h.start_eq]
  dsimp only
  rw [bind_apply, read_of_value h.last_eq]
  simp only [hinteger]
  rw [bind_apply, read_of_value h.step_eq]
  simp only [hstep]
  rfl

theorem behaviour_of_countsBetween (setting : Setting) {start last step : Int} {k : Nat}
    {outcome : LoopStep} {state : ForState} (h : setting.graph.CountsBetween node start last step)
    (hs : s.loops = .counted node.id start last step k)
    (ha : (ForState.after start last step k).advance setting.config.maxLoopIterations =
      .ok (outcome, state)) :
    behaviour setting node s =
      afterLoopStep setting node outcome { s with loops := Loops.startFor {} node.id state } := by
  rw [behaviour_of_forLoop h.kind, visitForLoop_apply, hs]
  cases k with
  | zero =>
    have hnone : (Loops.counted node.id start last step 0).counting.get? node.id = none := rfl
    rw [hnone, beginLoop_of_countsBetween h, ← ForState.after_zero]
    dsimp only
    rw [proceed_eq ha, Loops.startFor_startFor, hs]
    rfl
  | succ k =>
    have hsome : (Loops.counted node.id start last step (k + 1)).counting.get? node.id =
        some (.after start last step (k + 1)) := OrderedMap.get?_insert_self _ _ _
    rw [hsome]
    dsimp only
    rw [proceed_eq ha, hs, Loops.counted, Loops.startFor_startFor]

theorem behaviour_of_whileLoop_condition {condition : Bool} {k iterations : Nat}
    {outcome : LoopStep} (hk : node.kind = .whileLoop)
    (hs : s.loops = .repeated node.id k)
    (hcondition : readCondition setting node (enterWhile node s) = (.ok condition, t))
    (ht : t.loops = (enterWhile node s).loops)
    (ha : advanceWhile setting.config.maxLoopIterations condition k = .ok (outcome, iterations)) :
    behaviour setting node s =
      afterLoopStep setting node outcome
        { t with loops := Loops.setWhile {} node.id iterations } := by
  rw [behaviour_of_whileLoop hk, visitWhileLoop_eq, hcondition]
  dsimp only
  rw [hs, Loops.iterations_repeated, ha]
  dsimp only
  rw [ht, enterWhile, Loops.setWhile_setWhile, hs, Loops.setWhile_repeated]

theorem afterLoopStep_body (setting : Setting) (node : Node) (s : State) :
    afterLoopStep setting node .body s =
      (.ok (setting.graph.follow node loopBody ++ [node]),
        { s with evaluation := s.evaluation.bump }) := rfl

theorem afterLoopStep_leaving {c : Int} {cut : Bool}
    (hc : setting.config.maxLoopIterations = .int c) (hshort : cut = true → Decimal.Short c)
    (s : State) :
    afterLoopStep setting node (.leaving cut) s =
      (.ok (setting.graph.follow node completed),
        { s with
          loops := s.loops.finish node.id
          evaluation := { s.evaluation with
            trace := s.trace.endLoop node (.int c) (toString c) cut } }) := by
  cases cut with
  | false => rfl
  | true =>
    have hshown : (Value.int c).plain = .ok (toString c : Text) := Value.plain_int (hshort rfl)
    unfold afterLoopStep
    dsimp only [LoopStep.leaving]
    rw [hc, hshown]
    rfl

/-- Two visits lead to the loop, before which the variable is zero. -/
theorem drain_two (setting : Setting) {name : Text} {loop : Node}
    (h : setting.graph.LeadsIn name loop) (hs : fresh setting.config = .ok s) :
    ∃ e : Evaluation.State, e.Blank ∧ e.trace = {} ∧
      drain setting 2 (opened setting s) =
        { bindings := ⟨[(name, .int 0)]⟩, evaluation := e, queue := [loop], steps := 2 } := by
  obtain ⟨entries, after_entry, assigns, literal, after_init⟩ := h
  rename_i entry init zero
  obtain ⟨generator, rfl⟩ := fresh_eq_ok hs
  let opening : State := { evaluation := { generator }, queue := [entry] }
  have hentry : entry.kind = .beginPlay := by
    have hmem : entry ∈ setting.graph.nodesOfKind .beginPlay := by simp [entries]
    simpa using (List.mem_filter.mp hmem).2
  have hopened : opened setting { evaluation := { generator } } = opening := by
    simp [opened, entries, opening]
  have hfirst : step setting opening = { opening with queue := [init], steps := 1 } := by
    rw [step_of_behaviour rfl (behaviour_of_beginPlay hentry)]
    simp [after_entry, opening]
  have hblank : opening.evaluation.Blank := State.blank_of_empty rfl rfl
  have hzero : Supplies (opening.scene setting) opening.evaluation zero (.int 0) :=
    provides_literal literal _ hblank.cached?_eq_none fun m _ _ => hblank.not_mem m.id
  obtain ⟨e, he, htrace, hsecond⟩ :=
    step_of_assigns setting (s := { opening with queue := [init], steps := 1 }) assigns rfl hzero
      hblank
  refine ⟨e, he, htrace, ?_⟩
  rw [hopened, drain_succ, drain_succ, drain, hfirst, hsecond, after_init]
  rfl

/-- A run whose queue has run empty returns what has been written and the listing of the
variables. -/
theorem run_of_drain (setting : Setting) {m : Int} {n : Nat} {entry : Node} {others : List Node}
    {listing : List Text} (hm : setting.config.maxSteps = .int m)
    (hs : fresh setting.config = .ok s)
    (he : setting.graph.nodesOfKind .beginPlay = entry :: others) (hn : n ≤ m.toNat)
    (hd : drain setting n (opened setting s) = t) (hq : t.queue = [])
    (hl : t.bindings.listing = .ok listing) :
    ∃ r, run setting = .ok r ∧ r.state.steps = t.steps ∧
      r.lines = .ok (t.trace.lines ++ ("---" : Text) :: listing) := by
  have hp : setting.config.permittedSteps = .ok m.toNat := by
    rw [Config.permittedSteps, hm]
    rfl
  have hdrained : drain setting m.toNat (opened setting s) = t := by
    rw [← hd]
    exact drain_eq_of_queue_eq_nil (by rw [hd, hq]) hn
  have hwritten : (conclude setting entry t).1 = .ok () := by simp [conclude, Trace.close, hl]
  obtain ⟨u, hu⟩ : ∃ u, conclude setting entry t = (.ok (), u) := ⟨_, Prod.ext hwritten rfl⟩
  have hbindings : u.bindings = t.bindings := by rw [← bindings_conclude setting entry t, hu]
  obtain ⟨listing', hlisting, hlines⟩ := lines_of_conclude hu
  rw [hbindings, hl, Except.ok.injEq] at hlisting
  refine ⟨start setting s, by rw [run, hs]; rfl, ?_, ?_⟩
  · rw [start_of_entry setting he hp, hdrained, hu]
    exact congrArg (·.2.steps) hu.symm
  · rw [start_of_entry setting he hp, hdrained, hu]
    simp [hlines, hq, hlisting]

end Run

end NodeScript
