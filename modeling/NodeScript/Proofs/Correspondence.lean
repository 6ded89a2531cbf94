import NodeScript.Proofs.Lockstep
import NodeScript.Proofs.MapRelation

/-!
Graphs that correspond, as far as a run can reach. The nodes that a run can come to stand for nodes
of the other graph, and so do the wires that it can follow; then both runs have the same outcome.
-/

namespace NodeScript

open Relator Evaluation

def Entry.view (e : Entry) : Text × Bool × Bool := (e.line, e.isWarning, e.isError)

namespace Trace

variable {t t' : Trace} (h : t'.entries.map Entry.view = t.entries.map Entry.view)

include h

theorem lines_eq_of_view : t'.lines = t.lines := by
  have hlines := congrArg (List.map Prod.fst) h
  rw [List.map_map, List.map_map] at hlines
  exact hlines

theorem warnings_eq_of_view : t'.warnings = t.warnings := by
  have hcount := congrArg (List.countP fun v => v.2.1) h
  rw [List.countP_map, List.countP_map] at hcount
  exact hcount

theorem errors_eq_of_view : t'.errors = t.errors := by
  have hcount := congrArg (List.countP fun v => v.2.2) h
  rw [List.countP_map, List.countP_map] at hcount
  exact hcount

theorem view_append {e e' : Entry} (he : e'.view = e.view) :
    (t'.append e').entries.map Entry.view = (t.append e).entries.map Entry.view := by
  simp [append, h, he]

theorem view_close (vs : Variables) :
    (t'.close vs).1 = (t.close vs).1 ∧
      (t'.close vs).2.entries.map Entry.view = (t.close vs).2.entries.map Entry.view := by
  have hseparator := view_append h (e := .trailer separator) rfl
  unfold close
  cases vs.listing with
  | error fault => exact ⟨rfl, hseparator⟩
  | ok ls =>
    refine ⟨rfl, ?_⟩
    dsimp only
    rw [List.map_append, hseparator, List.map_append]

end Trace

section

variable (node : Node → Node → Prop) (key : PinKey → PinKey → Prop)

structure OutputAlike (n n' : Node) (p p' : Pin) : Prop where
  node : node n n'
  key : key (n.id, p.id) (n'.id, p'.id)
  type : p'.type = p.type

inductive OriginAlike : Origin → Origin → Prop
  | value (v : Value) : OriginAlike (.value v) (.value v)
  | output {n n' : Node} {p p' : Pin} (h : OutputAlike node key n n' p p') :
    OriginAlike (.output n p) (.output n' p')

structure InputAlike (g g' : Graph) (n n' : Node) (p p' : Pin) : Prop where
  label : p'.label = p.label
  type : p'.type = p.type
  origin : OriginAlike node key (origin g n p) (Evaluation.origin g' n' p')

structure ExitAlike (g g' : Graph) (n n' : Node) (p p' : Pin) : Prop where
  label : p'.label = p.label
  type : p'.type = p.type
  targets : List.Forall₂ node (g.targets n p) (g'.targets n' p')

end

/-- Nodes of two graphs that stand for each other, with what a run can reach from them. -/
structure Correspondence (g g' : Graph) where
  node : Node → Node → Prop
  id : Text → Text → Prop
  /-- Results are kept by the keys of outputs. -/
  key : PinKey → PinKey → Prop
  id_unique : BiUnique id
  key_unique : BiUnique key
  id_of_node {n n' : Node} : node n n' → id n.id n'.id
  mem {n n' : Node} : node n n' → n ∈ g.nodes
  mem' {n n' : Node} : node n n' → n' ∈ g'.nodes
  kind {n n' : Node} : node n n' → n'.kind = n.kind
  title {n n' : Node} : node n n' → n'.title = n.title
  properties {n n' : Node} : node n n' → n'.properties = n.properties
  inputs {n n' : Node} : node n n' →
    List.Forall₂ (InputAlike node key g g' n n') n.inputs n'.inputs
  outputs {n n' : Node} : node n n' →
    List.Forall₂ (ExitAlike node g g' n n') n.outputs n'.outputs
  entry : Option.Rel node (g.nodesOfKind .beginPlay).head? (g'.nodesOfKind .beginPlay).head?

namespace Correspondence

variable {g g' : Graph} {c : Correspondence g g'} {n n' : Node} {p p' : Pin} {ls ls' : Loops}
  {s s' : Evaluation.State}

abbrev Outputs (c : Correspondence g g') := OutputAlike c.node c.key

abbrev Inputs (c : Correspondence g g') := InputAlike c.node c.key g g'

theorem forall₂_dataInputs (h : c.node n n') :
    List.Forall₂ (c.Inputs n n') n.dataInputs n'.dataInputs := by
  refine List.rel_filter (fun p p' hp => ?_) (c.inputs h)
  simp only [Pin.isExec, hp.type]

theorem forall₂_successors (h : c.node n n') {f : Pin → Bool}
    (hf : ∀ p p', p'.label = p.label → p'.type = p.type → f p' = f p) :
    List.Forall₂ c.node (g.successors n (n.outputs.filter f))
      (g'.successors n' (n'.outputs.filter f)) := by
  refine List.rel_flatMap (List.rel_filter (fun p p' hp => ?_) (c.outputs h)) ?_
  · simp only [hf p p' hp.label hp.type]
  · exact fun p p' hp => hp.targets

theorem fallback_eq (h : c.node n n') (label : Text) : fallback n' label = fallback n label := by
  rw [fallback, fallback, c.kind h, c.properties h]

theorem reference_eq (h : c.node n n') : n'.reference = n.reference := by
  rw [Node.reference, Node.reference, Node.displayName, Node.displayName, c.kind h, c.title h]

theorem view_eq {e e' : Entry} (h : Entry.Alike c.node e e') : e'.view = e.view := by
  cases h with
  | print text => rfl
  | warning h message => simp only [Entry.view, Entry.line, reference_eq h]; rfl
  | failed h fault => simp only [Entry.view, Entry.line, Cause.line, reference_eq h]; rfl
  | loopLimit h limit shown =>
    simp only [Entry.view, Entry.line, Cause.line, reference_eq h]
    rfl

structure MirrorsLoops (c : Correspondence g g') (ls ls' : Loops) : Prop where
  counting : ls.counting.Rel c.id Eq ls'.counting
  conditional : ls.conditional.Rel c.id Eq ls'.conditional

structure Mirrors (c : Correspondence g g') (s s' : Evaluation.State) : Prop where
  generation : s'.generation = s.generation
  cache : s.cache.Rel c.key Eq s'.cache
  inProgress : List.Forall₂ c.id s.inProgress s'.inProgress
  cacheHits : s'.cacheHits = s.cacheHits
  generator : s'.generator = s.generator
  trace : s'.trace.entries.map Entry.view = s.trace.entries.map Entry.view

namespace Mirrors

theorem bump (hs : c.Mirrors s s') : c.Mirrors s.bump s'.bump :=
  ⟨congrArg (· + 1) hs.generation, hs.cache, hs.inProgress, hs.cacheHits, hs.generator, hs.trace⟩

theorem append (hs : c.Mirrors s s') {e e' : Entry} (h : e'.view = e.view) :
    c.Mirrors { s with trace := s.trace.append e } { s' with trace := s'.trace.append e' } where
  generation := hs.generation
  cache := hs.cache
  inProgress := hs.inProgress
  cacheHits := hs.cacheHits
  generator := hs.generator
  trace := Trace.view_append hs.trace h

theorem warn (hs : c.Mirrors s s') (h : c.node n n') (message : Text) :
    c.Mirrors (s.warn n message) (s'.warn n' message) := hs.append (view_eq (.warning h message))

theorem mark (hs : c.Mirrors s s') (h : c.node n n') : c.Mirrors (s.mark n.id) (s'.mark n'.id) :=
  ⟨hs.generation, hs.cache, .cons (c.id_of_node h) hs.inProgress, hs.cacheHits, hs.generator,
    hs.trace⟩

theorem unmark (hs : c.Mirrors s s') (h : c.node n n') :
    c.Mirrors (s.unmark n.id) (s'.unmark n'.id) where
  generation := hs.generation
  cache := hs.cache
  inProgress := by
    refine List.rel_filter (fun a a' ha => ?_) hs.inProgress
    have hiff : a = n.id ↔ a' = n'.id := rel_eq c.id_unique ha (c.id_of_node h)
    simpa using not_congr hiff
  cacheHits := hs.cacheHits
  generator := hs.generator
  trace := hs.trace

theorem store (hs : c.Mirrors s s') {k k' : PinKey} (hk : c.key k k') (v : Value) :
    c.Mirrors (s.store k v) (s'.store k' v) where
  generation := hs.generation
  cache := hs.cache.insert c.key_unique hk (by rw [hs.generation])
  inProgress := hs.inProgress
  cacheHits := hs.cacheHits
  generator := hs.generator
  trace := hs.trace

theorem cached?_eq (hs : c.Mirrors s s') {k k' : PinKey} (hk : c.key k k') :
    s'.cached? k' = s.cached? k := by
  rw [State.cached?, State.cached?, hs.cache.get?_eq c.key_unique hk, hs.generation]

theorem contains_inProgress_eq (hs : c.Mirrors s s') (h : c.node n n') :
    s'.inProgress.contains n'.id = s.inProgress.contains n.id := by
  have hmem := List.rel_mem c.id_unique (c.id_of_node h) hs.inProgress
  rw [Bool.eq_iff_iff, List.contains_iff_mem, List.contains_iff_mem]
  exact hmem.symm

end Mirrors

end Correspondence

namespace Evaluation

variable {scene scene' : Scene} {c : Correspondence scene.graph scene'.graph} {n n' : Node}
  {p p' : Pin} {s s' : State}

structure Scene.Mirrors (c : Correspondence scene.graph scene'.graph) : Prop where
  bindings : scene'.bindings = scene.bindings
  loops : c.MirrorsLoops scene.loops scene'.loops
  memo : scene'.memo = scene.memo

theorem immediate?_eq (hc : Scene.Mirrors c) (h : c.Outputs n n' p p') :
    immediate? scene' n' p' = immediate? scene n p := by
  have hindex : scene'.loops.currentIndex n'.id = scene.loops.currentIndex n.id := by
    rw [Loops.currentIndex, Loops.currentIndex,
      hc.loops.counting.get?_eq c.id_unique (c.id_of_node h.node)]
  rw [immediate?, immediate?, Pin.isExec, Pin.isExec, c.kind h.node, h.type, variableValue,
    variableValue, c.properties h.node, hc.bindings, hindex]

theorem mirrors_ready (hc : Scene.Mirrors c) (h : c.Outputs n n' p p') (hs : c.Mirrors s s') :
    (ready scene' s' n' p').1 = (ready scene s n p).1 ∧
      c.Mirrors (ready scene s n p).2 (ready scene' s' n' p').2 := by
  have hremembered : remembered? scene' s' n' p' = remembered? scene s n p := by
    rw [remembered?, remembered?, hc.memo, hs.cached?_eq h.key]
  rw [ready_eq, ready_eq, immediate?_eq hc h, hremembered, hs.contains_inProgress_eq h.node]
  cases immediate? scene n p with
  | some r => exact ⟨rfl, hs⟩
  | none =>
    cases remembered? scene s n p with
    | some v =>
      refine ⟨rfl, hs.generation, hs.cache, hs.inProgress, ?_, hs.generator, hs.trace⟩
      exact congrArg (· + 1) hs.cacheHits
    | none =>
      by_cases hp : s.inProgress.contains n.id
      · rw [if_pos hp, if_pos hp]
        exact ⟨rfl, hs.warn h.node cycleWarning⟩
      · rw [if_neg hp, if_neg hp]
        exact ⟨rfl, hs⟩

theorem mirrors_compute (h : c.Outputs n n' p p') (hs : c.Mirrors s s')
    (pending pending' : List Pin) (inputs : Inputs) (waiting waiting' : Text) :
    (compute s' ⟨n', p', pending', inputs, waiting'⟩).1 =
        (compute s ⟨n, p, pending, inputs, waiting⟩).1 ∧
      c.Mirrors (compute s ⟨n, p, pending, inputs, waiting⟩).2
        (compute s' ⟨n', p', pending', inputs, waiting'⟩).2 := by
  have ht := hs.unmark h.node
  have hgenerator : (s'.unmark n'.id).generator = (s.unmark n.id).generator := ht.generator
  unfold compute
  dsimp only
  rw [c.kind h.node, hgenerator]
  cases n.kind.operation? with
  | none => exact ⟨rfl, ht⟩
  | some operation =>
    dsimp only
    cases operation inputs (s.unmark n.id).generator with
    | ok x =>
      refine ⟨rfl, Correspondence.Mirrors.store ?_ h.key x.1⟩
      exact ⟨ht.generation, ht.cache, ht.inProgress, ht.cacheHits, rfl, ht.trace⟩
    | error failure =>
      cases failure with
      | warning message v => exact ⟨rfl, (ht.warn h.node message).store h.key v⟩
      | fault fault => exact ⟨rfl, ht⟩

namespace Recursive

/-- Both evaluations go too deep, or both end in the same way. -/
def Same {α : Type} (c : Correspondence scene.graph scene'.graph)
    (r r' : Option (Except Fault α × State)) : Prop :=
  Option.Rel (fun x x' => x'.1 = x.1 ∧ c.Mirrors x.2 x'.2) r r'

theorem Same.map {α β : Type} {r r' : Option (Except Fault α × State)}
    {f f' : Except Fault α × State → Except Fault β × State} (hr : Same c r r')
    (hf : ∀ x x', x'.1 = x.1 ∧ c.Mirrors x.2 x'.2 →
      (f' x').1 = (f x).1 ∧ c.Mirrors (f x).2 (f' x').2) : Same c (r.map f) (r'.map f') := by
  cases hr with
  | none => exact .none
  | some hx => exact .some (hf _ _ hx)

theorem same_complete (h : c.Outputs n n' p p') {gathered gathered' : Except Fault Inputs × State}
    (hg : gathered'.1 = gathered.1 ∧ c.Mirrors gathered.2 gathered'.2) :
    (complete n' p' gathered').1 = (complete n p gathered).1 ∧
      c.Mirrors (complete n p gathered).2 (complete n' p' gathered').2 := by
  obtain ⟨r, t⟩ := gathered
  obtain ⟨r', t'⟩ := gathered'
  obtain ⟨hr, ht⟩ := hg
  dsimp only at hr
  subst hr
  cases r' with
  | ok inputs => exact mirrors_compute h ht _ _ inputs _ _
  | error fault => exact ⟨rfl, ht.unmark h.node⟩

theorem same_gather {eval eval' : State → Node → Pin → Option (Except Fault Value × State)}
    (heval : ∀ {s s' n n' p p'}, c.Outputs n n' p p' → c.Mirrors s s' →
      Same c (eval s n p) (eval' s' n' p'))
    {pins pins' : List Pin} (hpins : List.Forall₂ (c.Inputs n n') pins pins')
    (hs : c.Mirrors s s') (inputs : Inputs) :
    Same c (gather scene eval n pins inputs s) (gather scene' eval' n' pins' inputs s') := by
  induction hpins generalizing inputs s s' with
  | nil => exact .some ⟨rfl, hs⟩
  | @cons p p' pins pins' hp _ ih =>
    have horigin := hp.origin
    rw [gather_cons, gather_cons, hp.label]
    generalize origin scene.graph n p = o at horigin ⊢
    generalize origin scene'.graph n' p' = o' at horigin ⊢
    cases horigin with
    | value v => exact ih hs _
    | @output m m' q q' h =>
      have he := heval h hs
      dsimp only
      generalize eval s m q = r at he ⊢
      generalize eval' s' m' q' = r' at he ⊢
      cases he with
      | none => exact .none
      | @some x x' hx =>
        obtain ⟨a, t⟩ := x
        obtain ⟨a', t'⟩ := x'
        obtain ⟨ha, ht⟩ := hx
        dsimp only at ha
        subst ha
        cases a' with
        | ok v => exact ih ht _
        | error fault => exact .some ⟨rfl, ht⟩

theorem same_output (hc : Scene.Mirrors c) (depth : Nat) (h : c.Outputs n n' p p')
    (hs : c.Mirrors s s') : Same c (output scene depth s n p) (output scene' depth s' n' p') := by
  induction depth generalizing s s' n n' p p' with
  | zero => exact .none
  | succ depth ih =>
    obtain ⟨hr, ht⟩ := mirrors_ready hc h hs
    unfold output
    generalize ready scene s n p = x at hr ht ⊢
    generalize ready scene' s' n' p' = x' at hr ht ⊢
    obtain ⟨r, t⟩ := x
    obtain ⟨r', t'⟩ := x'
    dsimp only at hr
    subst hr
    cases r' with
    | known v => exact .some ⟨rfl, ht⟩
    | failed fault => exact .some ⟨rfl, ht⟩
    | due =>
      have hinputs : (Frame.start n' p').inputs = (Frame.start n p).inputs := by
        rw [Frame.start, Frame.start, c.properties h.node]
      dsimp only
      rw [hinputs]
      refine Same.map ?_ fun x x' => same_complete h
      exact same_gather ih (c.forall₂_dataInputs h.node) (ht.mark h.node) _

end Recursive

theorem mirrors_output (hc : Scene.Mirrors c) (h : c.Outputs n n' p p') (hs : c.Mirrors s s') :
    (output scene' s' n' p').1 = (output scene s n p).1 ∧
      c.Mirrors (output scene s n p).2 (output scene' s' n' p').2 := by
  -- The graphs may differ in size, so the recursions are compared at a depth that both allow.
  let depth := max (Recursive.depthBound scene.graph) (Recursive.depthBound scene'.graph)
  have he := Recursive.output_mono (le_max_left _ _ : _ ≤ depth)
    (recursive_eq_some_output s (c.mem h.node) p)
  have he' := Recursive.output_mono (le_max_right _ _ : _ ≤ depth)
    (recursive_eq_some_output s' (c.mem' h.node) p')
  have hsame := Recursive.same_output hc depth h hs
  rw [he, he'] at hsame
  cases hsame with
  | some hx => exact hx

theorem mirrors_inputValue (hc : Scene.Mirrors c) (h : c.node n n') (hs : c.Mirrors s s')
    (label : Text) :
    (inputValue scene' s' n' label).1 = (inputValue scene s n label).1 ∧
      c.Mirrors (inputValue scene s n label).2 (inputValue scene' s' n' label).2 := by
  have hpin : Option.Rel (c.Inputs n n') (n.inputPin? label) (n'.inputPin? label) :=
    rel_find? (fun p p' hp => by rw [hp.label]) (c.inputs h)
  unfold inputValue
  generalize n.inputPin? label = o at hpin ⊢
  generalize n'.inputPin? label = o' at hpin ⊢
  cases hpin with
  | none => exact ⟨by rw [c.fallback_eq h], hs⟩
  | @some p p' hp =>
    have horigin := hp.origin
    dsimp only
    rw [input_eq, input_eq]
    generalize origin scene.graph n p = o at horigin ⊢
    generalize origin scene'.graph n' p' = o' at horigin ⊢
    cases horigin with
    | value v => exact ⟨rfl, hs⟩
    | output h => exact mirrors_output hc h hs

end Evaluation

namespace Run

/-- The results agree in all that a run shows of itself. -/
structure Result.Same (r r' : Result) : Prop where
  lines : r'.lines = r.lines
  steps : r'.state.steps = r.state.steps
  warnings : r'.state.trace.warnings = r.state.trace.warnings
  errors : r'.state.trace.errors = r.state.trace.errors
  cacheHits : r'.state.evaluation.cacheHits = r.state.evaluation.cacheHits
  generation : r'.state.evaluation.generation = r.state.evaluation.generation
  active : r'.state.loops.active = r.state.loops.active
  bindings : r'.state.bindings = r.state.bindings

theorem start_eq_conclude (setting : Setting) {entry : Node} {others : List Node} {permitted : Nat}
    (he : setting.graph.nodesOfKind .beginPlay = entry :: others)
    (hp : setting.config.permittedSteps = .ok permitted) (s : Run.State) :
    ∃ events, start setting s =
      let ended := conclude setting entry (drain setting permitted { s with queue := [entry] })
      ⟨ended.1.map fun _ => ended.2.trace.lines, ended.2, events⟩ := by
  unfold start
  rw [he, hp]
  dsimp only
  rcases conclude setting entry _ with ⟨fault | _, t⟩
  · exact ⟨_, rfl⟩
  · exact ⟨_, rfl⟩

end Run

namespace Correspondence

open Run

variable {g g' : Graph}

def simulation (c : Correspondence g g') (config : Config) (memo : Bool) :
    Simulation ⟨g, config, memo⟩ ⟨g', config, memo⟩ where
  node := c.node
  core _ ls ls' e e' := c.MirrorsLoops ls ls' ∧ c.Mirrors e e'
  limit := rfl
  kind := c.kind
  properties := c.properties
  sequence h := forall₂_successors h fun p p' _ ht => by rw [Pin.isExec, Pin.isExec, ht]
  follow label h := by
    have hf := forall₂_successors (f := fun p => p.label = label && p.isExec) h
      fun p p' hl ht => by rw [Pin.isExec, Pin.isExec, hl, ht]
    simpa only [Graph.follow, Node.execOutputsLabelled, Node.execOutputs, List.filter_filter]
      using hf
  counting h hc := hc.1.counting.get?_eq c.id_unique (c.id_of_node h)
  iterations h hc := by
    rw [Loops.iterations, Loops.iterations,
      hc.1.conditional.get?_eq c.id_unique (c.id_of_node h)]
  read {_ _ vs ls ls' _ _} label h hc := by
    have hscene : @Scene.Mirrors ⟨g, vs, ls, memo⟩ ⟨g', vs, ls', memo⟩ c := ⟨rfl, hc.1, rfl⟩
    obtain ⟨hv, hs⟩ := mirrors_inputValue hscene h hc.2 label
    exact ⟨hv, hc.1, hs⟩
  append h hc := ⟨hc.1, hc.2.append (view_eq h)⟩
  bump _ hc := ⟨hc.1, hc.2.bump⟩
  startFor state h hc :=
    ⟨⟨hc.1.counting.insert c.id_unique (c.id_of_node h) rfl, hc.1.conditional⟩, hc.2⟩
  setWhile k h hc :=
    ⟨⟨hc.1.counting, hc.1.conditional.insert c.id_unique (c.id_of_node h) rfl⟩, hc.2⟩
  finish h hc :=
    ⟨⟨hc.1.counting.erase c.id_unique (c.id_of_node h),
      hc.1.conditional.erase c.id_unique (c.id_of_node h)⟩, hc.2⟩

variable {c : Correspondence g g'} {config : Config} {memo : Bool} {s s' : Run.State}

theorem same_conclude (hs : (c.simulation config memo).Related s s') (entry entry' : Node) :
    (conclude ⟨g', config, memo⟩ entry' s').1 = (conclude ⟨g, config, memo⟩ entry s).1 ∧
      (conclude ⟨g', config, memo⟩ entry' s').2.trace.entries.map Entry.view =
        (conclude ⟨g, config, memo⟩ entry s).2.trace.entries.map Entry.view := by
  have htrace := hs.core.2.trace
  have hlength : s'.queue.length = s.queue.length := hs.queue.length_eq.symm
  have hempty : s'.queue.isEmpty = s.queue.isEmpty := by
    rw [Bool.eq_iff_iff, List.isEmpty_iff_length_eq_zero, List.isEmpty_iff_length_eq_zero, hlength]
  unfold conclude
  dsimp only
  rw [hempty, hs.bindings]
  by_cases hq : s.queue.isEmpty
  · rw [if_pos hq, if_pos hq]
    exact Trace.view_close htrace s.bindings
  · rw [if_neg hq, if_neg hq]
    have hview : (Entry.error (.stepLimit entry' config.maxSteps s'.queue.length)).view =
        (Entry.error (.stepLimit entry config.maxSteps s.queue.length)).view := rfl
    exact Trace.view_close (Trace.view_append htrace hview) s.bindings

theorem same_visits (hs : (c.simulation config memo).Related s s') {entry entry' : Node}
    {others others' : List Node} (he : g.nodesOfKind .beginPlay = entry :: others)
    (he' : g'.nodesOfKind .beginPlay = entry' :: others') (h : c.node entry entry')
    {permitted : Nat} (hp : config.permittedSteps = .ok permitted) :
    (start ⟨g, config, memo⟩ s).Same (start ⟨g', config, memo⟩ s') := by
  have hopened : (c.simulation config memo).Related { s with queue := [entry] }
      { s' with queue := [entry'] } := ⟨hs.bindings, .cons h .nil, hs.steps, hs.core⟩
  have hdrain := hopened.drain permitted
  obtain ⟨hclosed, htrace⟩ := same_conclude hdrain entry entry'
  obtain ⟨events, hstart⟩ := start_eq_conclude ⟨g, config, memo⟩ he hp s
  obtain ⟨events', hstart'⟩ := start_eq_conclude ⟨g', config, memo⟩ he' hp s'
  obtain ⟨hloops, hmirrors⟩ := hdrain.core
  rw [hstart, hstart']
  dsimp only
  refine ⟨?_, hdrain.steps, Trace.warnings_eq_of_view htrace, Trace.errors_eq_of_view htrace,
    hmirrors.cacheHits, hmirrors.generation, ?_, hdrain.bindings⟩
  · dsimp only
    rw [hclosed, Trace.lines_eq_of_view htrace]
  · exact congrArg₂ (· + ·) hloops.counting.size_eq hloops.conditional.size_eq

theorem same_start (c : Correspondence g g') (config : Config) (memo : Bool)
    (generator : Generator) :
    (start ⟨g, config, memo⟩ { evaluation := { generator } }).Same
      (start ⟨g', config, memo⟩ { evaluation := { generator } }) := by
  have hfresh : (c.simulation config memo).Related { evaluation := { generator } }
      { evaluation := { generator } } :=
    ⟨rfl, .nil, rfl, ⟨.nil, .nil⟩, rfl, .nil, .nil, rfl, rfl, rfl⟩
  have hentry := c.entry
  cases he : g.nodesOfKind .beginPlay with
  | nil =>
    cases he' : g'.nodesOfKind .beginPlay with
    | nil =>
      unfold start
      dsimp only
      rw [he, he']
      exact ⟨rfl, rfl, rfl, rfl, rfl, rfl, rfl, rfl⟩
    | cons entry' others' =>
      rw [he, he'] at hentry
      cases hentry
  | cons entry others =>
    cases he' : g'.nodesOfKind .beginPlay with
    | nil =>
      rw [he, he'] at hentry
      cases hentry
    | cons entry' others' =>
      rw [he, he'] at hentry
      cases hentry with
      | some hnode =>
        cases hp : config.permittedSteps with
        | ok permitted => exact same_visits hfresh he he' hnode hp
        | error fault =>
          unfold start
          dsimp only
          rw [he, he', hp]
          exact ⟨rfl, rfl, rfl, rfl, rfl, rfl, rfl, rfl⟩

/-- Whatever the limits, runs with the same integer seed and the same entropy return and have the
same outcome. -/
theorem same_run (c : Correspondence g g') (memo : Bool) (maxSteps maxLoopIterations : Value)
    (seed : Int) (entropy : Entropy) :
    ∃ r r', run ⟨g, ⟨maxSteps, maxLoopIterations, .int seed, entropy⟩, memo⟩ = .ok r ∧
      run ⟨g', ⟨maxSteps, maxLoopIterations, .int seed, entropy⟩, memo⟩ = .ok r' ∧ r.Same r' :=
  ⟨_, _, rfl, rfl,
    c.same_start ⟨maxSteps, maxLoopIterations, .int seed, entropy⟩ memo (.ofSeed seed entropy)⟩

end Correspondence

end NodeScript
