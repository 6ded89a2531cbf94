import NodeScript.Proofs.Meaning
import NodeScript.Proofs.StackRefinement

/-!
Results kept by an evaluation are values. The statements are relative to a set of nodes that is
closed under dependency: outside of it nothing is said about the results, so that they also apply
where some results are out of date.
-/

namespace NodeScript.Evaluation

open Meaning Relation

variable {scene : Scene} {hg : scene.graph.Acyclic} {good : Node → Prop} {s t : State}
  {node : Node} {pin : Pin}

theorem State.cached?_store (s : State) (key key' : PinKey) (v : Value) :
    (s.store key v).cached? key' = if key' = key then some v else s.cached? key' := by
  split
  · rename_i h
    subst h
    simp [cached?, store]
  · rename_i h
    simp only [cached?, store, OrderedMap.get?_insert_of_ne _ h]
    rfl

theorem State.cached?_congr (hc : t.cache = s.cache) (hn : t.generation = s.generation)
    (key : PinKey) : t.cached? key = s.cached? key := by
  rw [cached?, cached?, hc, hn]

theorem compute_plain {f : Frame} {operation : Inputs → Except Stop Value}
    (hk : f.node.kind.operation? = some (.plain operation)) (s : State) :
    ∃ u : State, u.cache = s.cache ∧ u.generation = s.generation ∧
      compute s f =
        match result (.plain operation) f.inputs with
        | .ok v => (.ok v, u.store (f.node.id, f.pin.id) v)
        | .error fault => (.error fault, u) := by
  unfold compute result
  simp only [hk, Operation.plain]
  cases operation f.inputs with
  | ok v => exact ⟨s.unmark f.node.id, rfl, rfl, rfl⟩
  | error stop =>
    cases stop with
    | warning message v => exact ⟨(s.unmark f.node.id).warn f.node message, rfl, rfl, rfl⟩
    | fault fault => exact ⟨s.unmark f.node.id, rfl, rfl, rfl⟩

/-- The results of the current generation at good nodes are their values. -/
def Sound (scene : Scene) (hg : scene.graph.Acyclic) (good : Node → Prop) (s : State) : Prop :=
  ∀ node ∈ scene.graph.nodes, good node → ∀ pinId v,
    s.cached? (node.id, pinId) = some v → operationValue scene hg node = .ok v

theorem Sound.congr (h : Sound scene hg good s) (hc : t.cache = s.cache)
    (hn : t.generation = s.generation) : Sound scene hg good t := by
  intro node hm hgood pinId v hv
  rw [State.cached?_congr hc hn] at hv
  exact h node hm hgood pinId v hv

theorem Sound.store (h : Sound scene hg good s) (hn : node ∈ scene.graph.nodes) {v : Value}
    (hv : good node → operationValue scene hg node = .ok v) (pinId : Text) :
    Sound scene hg good (s.store (node.id, pinId) v) := by
  intro m hm hgood p w hw
  rw [State.cached?_store] at hw
  split at hw
  · rename_i hkey
    cases hw
    have he : m = node := Graph.eq_of_id_eq hm hn (congrArg Prod.fst hkey)
    subst he
    exact hv hgood
  · exact h m hm hgood p w hw

/-- None of the nodes that the value of `node` depends on is in progress. -/
def Unentered (g : Graph) (s : State) (node : Node) : Prop :=
  ∀ m, ReflTransGen g.Feeds m node → m.id ∉ s.inProgress

theorem Unentered.of_feeds {source : Node} (hg : scene.graph.Acyclic)
    (hn : node ∈ scene.graph.nodes) (h : Unentered scene.graph s node)
    (hf : scene.graph.Feeds source node) (ht : t.inProgress = (s.mark node.id).inProgress) :
    Unentered scene.graph t source := by
  intro m hm hin
  rw [ht, State.inProgress_mark, List.mem_cons] at hin
  rcases hin with hid | hin
  · have hmem := Graph.mem_nodes_of_reflTransGen hm hf.mem_nodes
    exact hg.ne_of_reflTransGen hf hm (Graph.eq_of_id_eq hmem hn hid)
  · exact h m (hm.tail hf) hin

/-- What is said of an evaluation that begins with right results: they stay right, and the answer
is the value if the node is a good one. -/
def Computes (scene : Scene) (hg : scene.graph.Acyclic) (good : Node → Prop) (depth : Nat) : Prop :=
  ∀ {s : State} {node : Node} {pin : Pin} {r : Except Fault Value} {t : State},
    node ∈ scene.graph.nodes → Sound scene hg good s →
    (immediate? scene node pin = none → Unentered scene.graph s node) →
    Recursive.output scene depth s node pin = some (r, t) →
    Sound scene hg good t ∧
      ((immediate? scene node pin = none → good node) → r = outputValue scene hg node pin)

theorem Computes.gather {depth : Nat} (ih : Computes scene hg good depth)
    (hgood : ∀ m n, scene.graph.Feeds m n → good n → good m) {u : State}
    (hn : node ∈ scene.graph.nodes) (hk : node.kind.operation?.isSome = true)
    (hfree : Unentered scene.graph u node) {pins : List Pin}
    (hpins : ∀ p ∈ pins, p ∈ node.dataInputs) {inputs : Inputs} {r : Except Fault Inputs}
    (hu : s.inProgress = (u.mark node.id).inProgress) (hs : Sound scene hg good s)
    (h : Recursive.gather scene (Recursive.output scene depth) node pins inputs s = some (r, t)) :
    Sound scene hg good t ∧
      (good node → r = collect Pin.label (Meaning.inputValue scene hg node) pins inputs) := by
  induction pins generalizing inputs s with
  | nil =>
    cases h
    exact ⟨hs, fun _ => rfl⟩
  | cons pin pins ihp =>
    have hpin := hpins pin List.mem_cons_self
    have hrest : ∀ p ∈ pins, p ∈ node.dataInputs := fun p hp => hpins p (List.mem_cons_of_mem _ hp)
    rw [Recursive.gather_cons] at h
    rw [collect, Meaning.inputValue]
    cases ho : origin scene.graph node pin with
    | value v =>
      simp only [ho] at h
      exact ihp hrest hu hs h
    | output source out =>
      simp only [ho] at h
      have hfeeds : immediate? scene source out = none → scene.graph.Feeds source node :=
        feeds_of_origin hk hpin ho
      cases he : Recursive.output scene depth s source out with
      | none =>
        rw [he] at h
        cases h
      | some a =>
        obtain ⟨r', s'⟩ := a
        obtain ⟨hs', hr'⟩ := ih (mem_nodes_of_origin ho) hs
          (fun hi => hfree.of_feeds hg hn (hfeeds hi) hu) he
        have hu' := (Recursive.inProgress_output he).trans hu
        have hv : good node → r' = outputValue scene hg source out :=
          fun hgn => hr' fun hi => hgood source node (hfeeds hi) hgn
        rw [he] at h
        cases r' with
        | ok v =>
          obtain ⟨ht, hr⟩ := ihp hrest hu' hs' h
          refine ⟨ht, fun hgn => ?_⟩
          dsimp only
          rw [← hv hgn]
          exact hr hgn
        | error fault =>
          cases h
          refine ⟨hs', fun hgn => ?_⟩
          dsimp only
          rw [← hv hgn]

theorem complete_sound (hr : scene.graph.RandomFree) (pin : Pin) (hn : node ∈ scene.graph.nodes)
    {operation : Operation} (hk : node.kind.operation? = some operation)
    {gathered : Except Fault Inputs × State} (hs : Sound scene hg good gathered.2)
    (hin : good node → gathered.1 =
      collect Pin.label (Meaning.inputValue scene hg node) node.dataInputs (ownInputs node)) :
    Sound scene hg good (Recursive.complete node pin gathered).2 ∧
      (good node → (Recursive.complete node pin gathered).1 = operationValue scene hg node) := by
  obtain ⟨hi, hf⟩ := hr node hn
  obtain ⟨f, rfl⟩ := NodeKind.eq_plain_of_operation? hk hi hf
  obtain ⟨r, u⟩ := gathered
  cases r with
  | error fault =>
    refine ⟨hs.congr rfl rfl, fun hgn => ?_⟩
    rw [operationValue_eq hk, ← hin hgn]
    rfl
  | ok inputs =>
    obtain ⟨w, hc, hw, he⟩ :=
      compute_plain (f := { Frame.start node pin with pending := [], inputs }) hk u
    have hval : good node → operationValue scene hg node = result (.plain f) inputs := by
      intro hgn
      rw [operationValue_eq hk, ← hin hgn]
    have hsw : Sound scene hg good w := hs.congr hc hw
    have hcomplete : Recursive.complete node pin (.ok inputs, u) =
        compute u { Frame.start node pin with pending := [], inputs } := rfl
    rw [hcomplete, he]
    cases hres : result (.plain f) inputs with
    | ok v =>
      rw [hres] at hval
      exact ⟨hsw.store hn hval pin.id, fun hgn => (hval hgn).symm⟩
    | error fault =>
      rw [hres] at hval
      exact ⟨hsw, fun hgn => (hval hgn).symm⟩

theorem computes (hr : scene.graph.RandomFree)
    (hgood : ∀ m n, scene.graph.Feeds m n → good n → good m) (depth : Nat) :
    Computes scene hg good depth := by
  induction depth with
  | zero =>
    intro s node pin r t hn hs hfree h
    cases h
  | succ depth ih =>
    intro s node pin r t hn hs hfree h
    rw [outputValue]
    cases hi : immediate? scene node pin with
    | some a =>
      rcases Recursive.output_cases h with hready | ⟨hdue, -⟩
      · rw [ready_of_immediate hi] at hready
        cases a <;> cases r <;> cases hready <;> exact ⟨hs, fun _ => rfl⟩
      · rw [ready_of_immediate hi] at hdue
        cases a <;> cases hdue
    | none =>
      -- The node is not in progress, so it has a result or its operation is due.
      have hself := hfree hi node .refl
      rcases Recursive.output_cases h with hready | ⟨-, d, hdepth, g, hg', hc⟩
      · cases r with
        | error fault => cases hi.symm.trans (ready_failed hready).2
        | ok w =>
          cases Looked.of_eq hready with
          | shows hi' => cases hi.symm.trans hi'
          | remembers _ hv =>
            refine ⟨hs.congr rfl rfl, fun hgn => ?_⟩
            exact (hs node hn (hgn rfl) pin.id w (cached?_of_remembered? hv)).symm
          | circular _ _ hp => exact absurd hp hself
      · cases hdepth
        obtain ⟨-, hk⟩ := immediate?_eq_none_iff.mp hi
        obtain ⟨operation, hop⟩ := Option.isSome_iff_exists.mp hk
        have hsm : Sound scene hg good (s.mark node.id) := hs.congr rfl rfl
        obtain ⟨hsg, hin⟩ := ih.gather hgood hn hk (hfree hi) (fun _ hp => hp) rfl hsm
          (r := g.1) (t := g.2) hg'
        have hfin := complete_sound hr pin hn hop hsg hin
        rw [hc] at hfin
        exact ⟨hfin.1, fun hgn => hfin.2 (hgn rfl)⟩

/-- No result is from a generation to come. -/
def State.Stamped (s : State) : Prop :=
  ∀ key n v, s.cache.get? key = some (n, v) → n ≤ s.generation

theorem State.Stamped.store (h : s.Stamped) (key : PinKey) (v : Value) :
    (s.store key v).Stamped := by
  intro key' n w hw
  by_cases hk : key' = key
  · subst hk
    rw [State.store, OrderedMap.get?_insert_self] at hw
    cases hw
    exact le_rfl
  · rw [State.store, OrderedMap.get?_insert_of_ne _ hk] at hw
    exact h key' n w hw

theorem State.Stamped.cached?_bump (h : s.Stamped) (key : PinKey) : s.bump.cached? key = none := by
  rw [State.cached?]
  split
  · rename_i n v hv
    have hle := h key n v hv
    exact if_neg (by rw [State.bump]; dsimp only; omega)
  · rfl

theorem State.Stamped.bump (h : s.Stamped) : s.bump.Stamped :=
  fun key n v hv => (h key n v hv).trans (Nat.le_succ _)

/-- The later state is of the same generation, and without results from one to come if the earlier
one is. -/
def Contemporary (s t : State) : Prop := t.generation = s.generation ∧ (s.Stamped → t.Stamped)

theorem Contemporary.of_cache (hc : t.cache = s.cache) (hn : t.generation = s.generation) :
    Contemporary s t := ⟨hn, fun h key n v hv => hn ▸ h key n v (hc ▸ hv)⟩

theorem contemporary_compute (s : State) (f : Frame) : Contemporary s (compute s f).2 := by
  have h := ran_compute s f
  generalize compute s f = r at h
  cases h with
  | nothing | fault => exact .of_cache rfl rfl
  | result | warning =>
    exact ⟨rfl, fun h => State.Stamped.store (fun key n v hv => h key n v hv) _ _⟩

theorem contemporary_complete (node : Node) (pin : Pin) (gathered : Except Fault Inputs × State) :
    Contemporary gathered.2 (Recursive.complete node pin gathered).2 := by
  obtain ⟨fault | inputs, u⟩ := gathered
  · exact .of_cache rfl rfl
  · exact contemporary_compute u _

theorem contemporary_output (hn : node ∈ scene.graph.nodes) (s : State) (pin : Pin) :
    Contemporary s (output scene s node pin).2 := by
  refine Recursive.output_preserves (fun s => ⟨rfl, id⟩) ?_ (fun s node pin => ?_) ?_
    (recursive_eq_some_output s hn pin)
  · intro s t u hst htu
    exact ⟨htu.1.trans hst.1, fun h => htu.2 (hst.2 h)⟩
  · have hg := glances_ready scene s node pin
    exact .of_cache hg.cache hg.generation
  · intro s node pin gathered _ h
    have hc := contemporary_complete node pin gathered
    exact ⟨hc.1.trans h.1, fun hs => hc.2 (h.2 fun key n v hv => hs key n v hv)⟩

/-- The state between two evaluations: no node is in progress and the results are right. -/
structure Consistent (scene : Scene) (hg : scene.graph.Acyclic) (good : Node → Prop) (s : State) :
    Prop where
  idle : s.inProgress = []
  stamped : s.Stamped
  sound : Sound scene hg good s

theorem consistent_of_empty (hp : s.inProgress = []) (hc : s.cache = {}) :
    Consistent scene hg good s := by
  have hnone (key : PinKey) : s.cache.get? key = none := by rw [hc, OrderedMap.get?_empty]
  refine ⟨hp, ?_, ?_⟩
  · intro key n v h
    rw [hnone] at h
    cases h
  · intro node _ _ pinId v h
    rw [State.cached?, hnone] at h
    cases h

theorem Consistent.congr (h : Consistent scene hg good s) (hp : t.inProgress = s.inProgress)
    (hc : t.cache = s.cache) (hn : t.generation = s.generation) : Consistent scene hg good t :=
  ⟨hp.trans h.idle, (Contemporary.of_cache hc hn).2 h.stamped, h.sound.congr hc hn⟩

theorem Consistent.mono {good' : Node → Prop} (h : Consistent scene hg good s)
    (hle : ∀ m, good' m → good m) : Consistent scene hg good' s :=
  ⟨h.idle, h.stamped, fun m hm hgood => h.sound m hm (hle m hgood)⟩

theorem Consistent.bump (h : Consistent scene hg good s) {scene' : Scene}
    {hg' : scene'.graph.Acyclic} {good' : Node → Prop} : Consistent scene' hg' good' s.bump := by
  refine ⟨h.idle, h.stamped.bump, ?_⟩
  intro node _ _ pinId v hv
  rw [h.stamped.cached?_bump] at hv
  cases hv

def State.HasResult (s : State) (m : Node) : Prop := ∃ pinId v, s.cached? (m.id, pinId) = some v

theorem Consistent.changeLoops (h : Consistent scene hg good s) (loops : Loops)
    (hl : ∀ m, good m → s.HasResult m → ∀ f, scene.graph.DependsOnLoop m f →
      scene.loops.currentIndex f.id = loops.currentIndex f.id) :
    Consistent { scene with loops } hg good s := by
  refine ⟨h.idle, h.stamped, ?_⟩
  intro m hm hgood pinId v hv
  rw [← operationValue_congr loops scene.memo (hl m hgood ⟨pinId, v, hv⟩)]
  exact h.sound m hm hgood pinId v hv

/-- An evaluation of whichever kind keeps the state consistent, and answers with the value where it
only looks at good nodes. -/
structure Answers (scene : Scene) (hg : scene.graph.Acyclic) (good : Node → Prop) (looked : Prop)
    (value : Except Fault Value) (answer : Except Fault Value × State) : Prop where
  consistent : Consistent scene hg good answer.2
  value : looked → answer.1 = value

theorem Consistent.answers (h : Consistent scene hg good s) (looked : Prop)
    (value : Except Fault Value) : Answers scene hg good looked value (value, s) :=
  ⟨h, fun _ => rfl⟩

theorem output_answers (hr : scene.graph.RandomFree)
    (hgood : ∀ m n, scene.graph.Feeds m n → good n → good m) (h : Consistent scene hg good s)
    (hn : node ∈ scene.graph.nodes) (pin : Pin) :
    Answers scene hg good (immediate? scene node pin = none → good node)
      (outputValue scene hg node pin) (output scene s node pin) := by
  have hrec := recursive_eq_some_output s hn pin
  have hfree : immediate? scene node pin = none → Unentered scene.graph s node := by
    intro _ m _ hm
    rw [h.idle] at hm
    cases hm
  obtain ⟨hs, hv⟩ := computes hr hgood _ (r := (output scene s node pin).1)
    (t := (output scene s node pin).2) hn h.sound hfree hrec
  have hp : (output scene s node pin).2.inProgress = s.inProgress :=
    Recursive.inProgress_output (r := (output scene s node pin).1) hrec
  have hc := contemporary_output hn s pin
  exact ⟨⟨hp.trans h.idle, hc.2 h.stamped, hs⟩, hv⟩

theorem input_eq (scene : Scene) (s : State) (node : Node) (pin : Pin) :
    input scene s node pin =
      match origin scene.graph node pin with
      | .value v => (.ok v, s)
      | .output source out => output scene s source out := by
  unfold origin
  cases hw : scene.graph.incoming? node.id pin.id with
  | none => simp only [input, hw]
  | some wire => cases hs : scene.graph.source? wire <;> simp only [input, hw, hs]

theorem inputValue_preserves {R : State → State → Prop} (hrefl : ∀ s, R s s)
    (houtput : ∀ node ∈ scene.graph.nodes, ∀ s pin, R s (output scene s node pin).2) (s : State)
    (node : Node) (label : Text) : R s (inputValue scene s node label).2 := by
  rw [inputValue]
  split
  · exact hrefl s
  · rename_i pin _
    rw [input_eq]
    cases ho : origin scene.graph node pin with
    | value v => exact hrefl s
    | output source out => exact houtput source (mem_nodes_of_origin ho) s out

theorem contemporary_inputValue (scene : Scene) (s : State) (node : Node) (label : Text) :
    Contemporary s (inputValue scene s node label).2 :=
  inputValue_preserves (fun _ => .of_cache rfl rfl) (fun _ hn s => contemporary_output hn s) s node
    label

def InputGood (scene : Scene) (good : Node → Prop) (node : Node) (pin : Pin) : Prop :=
  ∀ source out, origin scene.graph node pin = .output source out →
    immediate? scene source out = none → good source

theorem input_answers (hr : scene.graph.RandomFree)
    (hgood : ∀ m n, scene.graph.Feeds m n → good n → good m) (h : Consistent scene hg good s)
    (node : Node) (pin : Pin) :
    Answers scene hg good (InputGood scene good node pin)
      (Meaning.inputValue scene hg node pin) (input scene s node pin) := by
  rw [input_eq, Meaning.inputValue]
  cases ho : origin scene.graph node pin with
  | value v => exact h.answers _ _
  | output source out =>
    obtain ⟨hc, hv⟩ := output_answers hr hgood h (mem_nodes_of_origin ho) out
    exact ⟨hc, fun hl => hv (hl source out ho)⟩

theorem inputValue_answers (hr : scene.graph.RandomFree)
    (hgood : ∀ m n, scene.graph.Feeds m n → good n → good m) (h : Consistent scene hg good s)
    (node : Node) (label : Text) :
    Answers scene hg good (∀ pin, node.inputPin? label = some pin → InputGood scene good node pin)
      (labelValue scene hg node label) (inputValue scene s node label) := by
  rw [inputValue, labelValue]
  cases hp : node.inputPin? label with
  | none => exact h.answers _ _
  | some pin =>
    obtain ⟨hc, hv⟩ := input_answers hr hgood h node pin
    exact ⟨hc, fun hl => hv (hl pin rfl)⟩

theorem evaluate_answers (hr : scene.graph.RandomFree)
    (h : Consistent scene hg (fun _ => True) s) (nodeId pinId : Text) :
    Answers scene hg (fun _ => True) True (pinValue scene hg nodeId pinId)
      (evaluate scene s nodeId pinId) := by
  have hgood : ∀ m n, scene.graph.Feeds m n → True → True := fun _ _ _ _ => trivial
  rw [evaluate, pinValue]
  cases hn : scene.graph.node? nodeId with
  | none => exact h.answers _ _
  | some node =>
    dsimp only
    cases ho : node.outputs.find? (·.id = pinId) with
    | some pin =>
      obtain ⟨hc, hv⟩ := output_answers hr hgood h (Graph.mem_nodes_of_node? hn) pin
      exact ⟨hc, fun _ => hv fun _ => trivial⟩
    | none =>
      dsimp only
      cases hi : node.inputs.find? (·.id = pinId) with
      | none => exact h.answers _ _
      | some pin =>
        obtain ⟨hc, hv⟩ := input_answers hr hgood h node pin
        exact ⟨hc, fun _ => hv fun _ _ _ _ => trivial⟩

end NodeScript.Evaluation
