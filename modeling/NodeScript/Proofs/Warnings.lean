import NodeScript.Proofs.CacheSoundness

namespace NodeScript

/-- The second trace begins with the first, and what has been added has the property. -/
def Trace.Extends (p : Entry → Prop) (t u : Trace) : Prop :=
  ∃ es, u.entries = t.entries ++ es ∧ ∀ e ∈ es, p e

section

variable {p q : Entry → Prop} {t u v : Trace}

theorem Trace.Extends.refl (p : Entry → Prop) (t : Trace) : t.Extends p t :=
  ⟨[], by simp, by simp⟩

theorem Trace.Extends.trans (htu : t.Extends p u) (huv : u.Extends p v) : t.Extends p v := by
  obtain ⟨es, hu, hes⟩ := htu
  obtain ⟨fs, hv, hfs⟩ := huv
  refine ⟨es ++ fs, by rw [hv, hu, List.append_assoc], fun e he => ?_⟩
  obtain he | he := List.mem_append.mp he
  · exact hes e he
  · exact hfs e he

theorem Trace.Extends.mono (h : t.Extends p u) (hpq : ∀ e, p e → q e) : t.Extends q u := by
  obtain ⟨es, hu, hes⟩ := h
  exact ⟨es, hu, fun e he => hpq e (hes e he)⟩

theorem Trace.extends_append {e : Entry} (t : Trace) (he : p e) : t.Extends p (t.append e) :=
  ⟨[e], rfl, by simpa using he⟩

end

/-- The first trace is the second without some of its warnings. -/
def Trace.Thinned (t t' : Trace) : Prop :=
  t.entries.Sublist t'.entries ∧
    t.entries.filter (!·.isWarning) = t'.entries.filter (!·.isWarning)

theorem Trace.Thinned.refl (t : Trace) : t.Thinned t := ⟨List.Sublist.refl _, rfl⟩

theorem Trace.Thinned.append {t t' : Trace} (h : t.Thinned t') (es : List Entry) :
    Thinned ⟨t.entries ++ es⟩ ⟨t'.entries ++ es⟩ :=
  ⟨h.1.append_right es, by rw [List.filter_append, List.filter_append, h.2]⟩

theorem Trace.Thinned.warnings {t t' u : Trace} (h : t.Thinned t')
    (hu : t'.Extends (·.isWarning = true) u) : t.Thinned u := by
  obtain ⟨ws, hu, hws⟩ := hu
  have hnone : ws.filter (!·.isWarning) = [] := by simpa [List.filter_eq_nil_iff] using hws
  refine ⟨?_, ?_⟩
  · rw [hu]
    exact h.1.trans (List.sublist_append_left _ _)
  · rw [hu, List.filter_append, hnone, List.append_nil, h.2]

theorem Trace.Thinned.close {t t' : Trace} (h : t.Thinned t') (vs : Variables) :
    (t'.close vs).1 = (t.close vs).1 ∧ (t.close vs).2.Thinned (t'.close vs).2 := by
  unfold Trace.close
  cases vs.listing with
  | error fault => exact ⟨rfl, h.append [.trailer separator]⟩
  | ok ls => exact ⟨rfl, (h.append [.trailer separator]).append (ls.map .trailer)⟩

def Graph.Operates (g : Graph) (m : Node) : Prop :=
  m ∈ g.nodes ∧ m.kind.operation?.isSome = true

theorem Graph.Feeds.operates {g : Graph} {m n : Node} (h : g.Feeds m n) : g.Operates m :=
  ⟨h.mem_nodes, h.1⟩

namespace Evaluation

open Meaning

variable {scene : Scene} {s t u : State} {node : Node} {pin : Pin}

def Warned (s t : State) : Prop := s.trace.Extends (·.isWarning = true) t.trace

theorem Warned.of_trace (h : t.trace = s.trace) : Warned s t := by
  rw [Warned, h]
  exact .refl _ _

theorem warned_warn (s : State) (node : Node) (message : Text) : Warned s (s.warn node message) :=
  s.trace.extends_append rfl

theorem warned_ready (scene : Scene) (s : State) (node : Node) (pin : Pin) :
    Warned s (ready scene s node pin).2 := by
  have h := looked_ready scene s node pin
  generalize ready scene s node pin = r at h
  cases h with
  | circular => exact warned_warn s node cycleWarning
  | _ => exact .of_trace rfl

theorem warned_compute (s : State) (f : Frame) : Warned s (compute s f).2 := by
  have h := ran_compute s f
  generalize compute s f = r at h
  cases h with
  | warning => exact warned_warn s f.node _
  | _ => exact .of_trace rfl

theorem warned_complete (node : Node) (pin : Pin) (gathered : Except Fault Inputs × State) :
    Warned gathered.2 (Recursive.complete node pin gathered).2 := by
  obtain ⟨fault | inputs, u⟩ := gathered
  · exact .of_trace rfl
  · exact warned_compute u _

theorem warned_recursive {depth : Nat} {r : Except Fault Value}
    (h : Recursive.output scene depth s node pin = some (r, t)) : Warned s t := by
  refine Recursive.output_preserves (R := Warned) (fun _ => .of_trace rfl)
    (fun _ _ _ => Trace.Extends.trans) (warned_ready scene) ?_ h
  intro s node pin gathered _ hg
  have hm : Warned s gathered.2 := hg
  exact hm.trans (warned_complete node pin gathered)

theorem warned_inputValue (scene : Scene) (s : State) (node : Node) (label : Text) :
    Warned s (inputValue scene s node label).2 :=
  inputValue_preserves (fun _ => .of_trace rfl)
    (fun _ hn s pin => warned_recursive (recursive_eq_some_output s hn pin)) s node label

variable {hg : scene.graph.Acyclic} {good : Node → Prop}

/-- The state `s` of an evaluation that uses results again, and the state `s'` at the same point of
an evaluation that does not. -/
structure Shadows (scene : Scene) (hg : scene.graph.Acyclic) (good : Node → Prop) (s s' : State) :
    Prop where
  inProgress : s'.inProgress = s.inProgress
  sound : Sound scene hg good s
  sound' : Sound { scene with memo := false } hg good s'
  thinned : s.trace.Thinned s'.trace

theorem outputValue_forget (scene : Scene) (hg : scene.graph.Acyclic) (node : Node) (pin : Pin) :
    outputValue { scene with memo := false } hg node pin = outputValue scene hg node pin := by
  have hi : immediate? { scene with memo := false } node pin = immediate? scene node pin := rfl
  unfold outputValue
  rw [hi, ← operationValue_congr scene.loops false fun _ _ => rfl]

/-- What is said of two evaluations at the same point: they give the same answer and are at the
same point again. -/
def Shadowed (scene : Scene) (hg : scene.graph.Acyclic) (good : Node → Prop) (depth : Nat) : Prop :=
  ∀ {s s' : State} {node : Node} {pin : Pin} {r r' : Except Fault Value} {t t' : State},
    node ∈ scene.graph.nodes → Shadows scene hg good s s' →
    (immediate? scene node pin = none → good node ∧ Unentered scene.graph s node) →
    Recursive.output scene depth s node pin = some (r, t) →
    Recursive.output { scene with memo := false } depth s' node pin = some (r', t') →
    r' = r ∧ Shadows scene hg good t t'

theorem Shadowed.gather {depth : Nat} (ih : Shadowed scene hg good depth)
    (hgood : ∀ m n, scene.graph.Feeds m n → good n → good m)
    (hn : node ∈ scene.graph.nodes) (hk : node.kind.operation?.isSome = true) (hgn : good node)
    (hfree : Unentered scene.graph u node) {pins : List Pin}
    (hpins : ∀ p ∈ pins, p ∈ node.dataInputs) {inputs : Inputs} {s' t' : State}
    {r r' : Except Fault Inputs} (hu : s.inProgress = (u.mark node.id).inProgress)
    (hs : Shadows scene hg good s s')
    (h : Recursive.gather scene (Recursive.output scene depth) node pins inputs s = some (r, t))
    (h' : Recursive.gather { scene with memo := false }
      (Recursive.output { scene with memo := false } depth) node pins inputs s' = some (r', t')) :
    r' = r ∧ Shadows scene hg good t t' := by
  induction pins generalizing inputs s s' with
  | nil =>
    cases h
    cases h'
    exact ⟨rfl, hs⟩
  | cons pin pins ihp =>
    have hpin := hpins pin List.mem_cons_self
    have hrest : ∀ p ∈ pins, p ∈ node.dataInputs := fun p hp => hpins p (List.mem_cons_of_mem _ hp)
    rw [Recursive.gather_cons] at h h'
    cases ho : origin scene.graph node pin with
    | value v =>
      simp only [ho] at h h'
      exact ihp hrest hu hs h h'
    | output source out =>
      simp only [ho] at h h'
      cases he : Recursive.output scene depth s source out with
      | none =>
        rw [he] at h
        cases h
      | some a =>
        cases he' : Recursive.output { scene with memo := false } depth s' source out with
        | none =>
          rw [he'] at h'
          cases h'
        | some a' =>
          obtain ⟨q, v⟩ := a
          obtain ⟨q', v'⟩ := a'
          have hsource : immediate? scene source out = none →
              good source ∧ Unentered scene.graph s source := by
            intro hi
            have hf := feeds_of_origin hk hpin ho hi
            exact ⟨hgood source node hf hgn, hfree.of_feeds hg hn hf hu⟩
          obtain ⟨rfl, hv⟩ := ih (mem_nodes_of_origin ho) hs hsource he he'
          have hu' := (Recursive.inProgress_output he).trans hu
          rw [he] at h
          rw [he'] at h'
          cases q' with
          | ok v => exact ihp hrest hu' hv h h'
          | error fault =>
            cases h
            cases h'
            exact ⟨rfl, hv⟩

theorem trace_compute_plain {f : Frame} {operation : Inputs → Except Stop Value}
    (hk : f.node.kind.operation? = some (.plain operation)) (s : State) :
    (compute s f).2.trace =
      match operation f.inputs with
      | .error (.warning message _) => s.trace.warn f.node message
      | _ => s.trace := by
  unfold compute
  simp only [hk, Operation.plain]
  rcases operation f.inputs with (⟨message, v⟩ | fault) | v <;> rfl

theorem thinned_complete (hr : scene.graph.RandomFree) (hn : node ∈ scene.graph.nodes)
    {operation : Operation} (hk : node.kind.operation? = some operation) (pin : Pin)
    (gathered : Except Fault Inputs) (h : s.trace.Thinned t.trace) :
    (Recursive.complete node pin (gathered, s)).2.trace.Thinned
      (Recursive.complete node pin (gathered, t)).2.trace := by
  obtain ⟨hi, hf⟩ := hr node hn
  obtain ⟨f, rfl⟩ := NodeKind.eq_plain_of_operation? hk hi hf
  cases gathered with
  | error fault => exact h
  | ok inputs =>
    rw [Recursive.complete, Recursive.complete, trace_compute_plain hk, trace_compute_plain hk]
    dsimp only
    split
    · exact h.append [.warning node _]
    · exact h

theorem Shadows.mark {s' : State} (h : Shadows scene hg good s s') (id : Text) :
    Shadows scene hg good (s.mark id) (s'.mark id) where
  inProgress := congrArg (id :: ·) h.inProgress
  sound := h.sound.congr rfl rfl
  sound' := h.sound'.congr rfl rfl
  thinned := h.thinned

theorem eq_of_immediate {depth : Nat} {r a : Except Fault Value}
    (hi : immediate? scene node pin = some a)
    (h : Recursive.output scene depth s node pin = some (r, t)) : t = s := by
  obtain hready | ⟨hdue, -⟩ := Recursive.output_cases h
  · rw [ready_of_immediate hi] at hready
    exact (congrArg Prod.snd hready).symm
  · rw [ready_of_immediate hi] at hdue
    cases a <;> cases hdue

/-- What is not immediate has a result that is used again, or its inputs are gathered. -/
theorem remembered_or_gathered {depth : Nat} {r : Except Fault Value}
    (hi : immediate? scene node pin = none) (hfree : node.id ∉ s.inProgress)
    (h : Recursive.output scene (depth + 1) s node pin = some (r, t)) :
    ((remembered? scene s node pin).isSome = true ∧ t.trace = s.trace) ∨
      ∃ gathered, Recursive.gather scene (Recursive.output scene depth) node node.dataInputs
          (Frame.start node pin).inputs (s.mark node.id) = some gathered ∧
        Recursive.complete node pin gathered = (r, t) := by
  obtain hready | ⟨-, d, hd, gathered, hgathered⟩ := Recursive.output_cases h
  · left
    cases r with
    | error fault => cases hi.symm.trans (ready_failed hready).2
    | ok v =>
      cases Looked.of_eq hready with
      | shows hi' => cases hi.symm.trans hi'
      | remembers _ hv => exact ⟨by rw [hv]; rfl, rfl⟩
      | circular _ _ hp => exact absurd hp hfree
  · cases hd
    exact .inr ⟨gathered, hgathered⟩

/-- A result that is used again saves the warnings of finding it once more. -/
theorem Shadowed.thinned {depth : Nat} (ih : Shadowed scene hg good depth)
    (hr : scene.graph.RandomFree) (hgood : ∀ m n, scene.graph.Feeds m n → good n → good m)
    {s' t' : State} {r r' : Except Fault Value} (hn : node ∈ scene.graph.nodes)
    (hs : Shadows scene hg good s s') (hi : immediate? scene node pin = none) (hgn : good node)
    (hfree : Unentered scene.graph s node)
    (h : Recursive.output scene (depth + 1) s node pin = some (r, t))
    (h' : Recursive.output { scene with memo := false } (depth + 1) s' node pin = some (r', t')) :
    t.trace.Thinned t'.trace := by
  have hself := hfree node .refl
  have hself' : node.id ∉ s'.inProgress := by rwa [hs.inProgress]
  have hi' : immediate? { scene with memo := false } node pin = none := hi
  obtain ⟨hm, -⟩ | ⟨g', hg', hc'⟩ := remembered_or_gathered hi' hself' h'
  · cases hm
  obtain ⟨-, ht⟩ | ⟨g, hg₁, hc⟩ := remembered_or_gathered hi hself h
  · rw [ht]
    exact hs.thinned.warnings (warned_recursive h')
  · obtain ⟨-, hk⟩ := immediate?_eq_none_iff.mp hi
    obtain ⟨operation, hop⟩ := Option.isSome_iff_exists.mp hk
    obtain ⟨q, v⟩ := g
    obtain ⟨q', v'⟩ := g'
    obtain ⟨rfl, hv⟩ := ih.gather hgood hn hk hgn hfree (fun _ hp => hp) rfl (hs.mark node.id)
      hg₁ hg'
    have hthinned := thinned_complete hr hn hop pin q' hv.thinned
    rwa [hc, hc'] at hthinned

theorem shadowed (hr : scene.graph.RandomFree)
    (hgood : ∀ m n, scene.graph.Feeds m n → good n → good m) (depth : Nat) :
    Shadowed scene hg good depth := by
  induction depth with
  | zero =>
    intro s s' node pin r r' t t' hn hs hfree h h'
    cases h
  | succ depth ih =>
    intro s s' node pin r r' t t' hn hs hfree h h'
    have hfree' : immediate? scene node pin = none → Unentered scene.graph s' node := by
      intro hi m hm
      rw [hs.inProgress]
      exact (hfree hi).2 m hm
    have hforget := @computes { scene with memo := false } hg good hr hgood (depth + 1)
    obtain ⟨hsound, hvalue⟩ := computes hr hgood _ hn hs.sound (fun hi => (hfree hi).2) h
    obtain ⟨hsound', hvalue'⟩ := hforget hn hs.sound' hfree' h'
    have hsame := hvalue' fun hi => (hfree hi).1
    rw [outputValue_forget, ← hvalue fun hi => (hfree hi).1] at hsame
    refine ⟨hsame, ?_, hsound, hsound', ?_⟩
    · rw [Recursive.inProgress_output h, Recursive.inProgress_output h', hs.inProgress]
    · cases hi : immediate? scene node pin with
      | some a =>
        have hi' : immediate? { scene with memo := false } node pin = some a := hi
        rw [eq_of_immediate hi h, eq_of_immediate hi' h']
        exact hs.thinned
      | none => exact ih.thinned hr hgood hn hs hi (hfree hi).1 (hfree hi).2 h h'

/-- Between evaluations: the state of one that uses results again, and of one that does not. -/
structure Twins (scene : Scene) (hg : scene.graph.Acyclic) (s s' : State) : Prop where
  consistent : Consistent scene hg scene.graph.Operates s
  consistent' : Consistent { scene with memo := false } hg scene.graph.Operates s'
  thinned : s.trace.Thinned s'.trace

theorem Twins.output {s' : State} (hr : scene.graph.RandomFree) (h : Twins scene hg s s')
    (hn : node ∈ scene.graph.nodes) (pin : Pin) :
    (output { scene with memo := false } s' node pin).1 = (output scene s node pin).1 ∧
      Twins scene hg (output scene s node pin).2
        (output { scene with memo := false } s' node pin).2 := by
  have hr' : ({ scene with memo := false } : Scene).graph.RandomFree := hr
  have hgood : ∀ m n, scene.graph.Feeds m n → scene.graph.Operates n → scene.graph.Operates m :=
    fun _ _ hf _ => hf.operates
  have hs : Shadows scene hg scene.graph.Operates s s' :=
    ⟨h.consistent'.idle.trans h.consistent.idle.symm, h.consistent.sound, h.consistent'.sound,
      h.thinned⟩
  have hfree : immediate? scene node pin = none →
      scene.graph.Operates node ∧ Unentered scene.graph s node := by
    intro hi
    refine ⟨⟨hn, (immediate?_eq_none_iff.mp hi).2⟩, fun m _ hm => ?_⟩
    rw [h.consistent.idle] at hm
    cases hm
  have hrec' := @recursive_eq_some_output { scene with memo := false } node s' hn pin
  obtain ⟨hv, ht⟩ := shadowed hr hgood _ hn hs hfree (recursive_eq_some_output s hn pin) hrec'
  exact ⟨hv, (output_answers hr hgood h.consistent hn pin).consistent,
    (output_answers hr' hgood h.consistent' hn pin).consistent, ht.thinned⟩

/-- What flows into an input is the same whether results are used again or not. -/
theorem Twins.inputValue {s' : State} (hr : scene.graph.RandomFree) (h : Twins scene hg s s')
    (node : Node) (label : Text) :
    (inputValue { scene with memo := false } s' node label).1 =
        (inputValue scene s node label).1 ∧
      Twins scene hg (inputValue scene s node label).2
        (inputValue { scene with memo := false } s' node label).2 := by
  unfold Evaluation.inputValue
  cases node.inputPin? label with
  | none => exact ⟨rfl, h⟩
  | some pin =>
    dsimp only
    rw [input_eq, input_eq]
    cases ho : origin scene.graph node pin with
    | value v => exact ⟨rfl, h⟩
    | output source out => exact h.output hr (mem_nodes_of_origin ho) out

end Evaluation

end NodeScript
