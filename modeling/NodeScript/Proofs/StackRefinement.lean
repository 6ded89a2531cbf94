import Mathlib.Data.Finset.Card
import NodeScript.Evaluation.Recursive
import NodeScript.Proofs.Readiness

/-!
The evaluation with a stack of frames agrees with the evaluation by recursion. A frame below the
top stands for a recursive call that waits for one of its inputs; the frame above it, worked off,
hands on what that call returns.
-/

namespace NodeScript.Evaluation

variable {scene : Scene} {s t : State} {node : Node} {pin : Pin}

@[simp] theorem State.inProgress_mark (s : State) (id : Text) :
    (s.mark id).inProgress = id :: s.inProgress := rfl

theorem State.filter_mark {id : Text} (h : id ∉ s.inProgress) :
    (s.mark id).inProgress.filter (· ≠ id) = s.inProgress := by
  rw [inProgress_mark, List.filter_cons_of_neg (by simp), List.filter_eq_self]
  intro x hx
  simpa using ne_of_mem_of_not_mem hx h

namespace Recursive

variable {eval : State → Node → Pin → Option (Except Fault Value × State)} {pins : List Pin}
  {inputs : Inputs}

theorem gather_cons (node : Node) (pin : Pin) (pins : List Pin) (inputs : Inputs) (s : State) :
    gather scene eval node (pin :: pins) inputs s =
      match origin scene.graph node pin with
      | .value v => gather scene eval node pins (inputs.insert pin.label v) s
      | .output source out =>
        match eval s source out with
        | none => none
        | some (.ok v, s) => gather scene eval node pins (inputs.insert pin.label v) s
        | some (.error fault, s) => some (.error fault, s) := by
  unfold origin
  cases hw : scene.graph.incoming? node.id pin.id with
  | none => simp only [gather, hw]
  | some wire =>
    cases hs : scene.graph.source? wire with
    | none => simp only [gather, hw, hs]
    | some p =>
      obtain ⟨source, out⟩ := p
      rcases he : eval s source out with _ | ⟨fault | v, u⟩ <;> simp only [gather, hw, hs, he]

/-- Whatever relates the states before and after each evaluation of an input, and is kept along
them, relates the states before and after all of them. -/
theorem gather_preserves {R : State → State → Prop} (hrefl : ∀ s, R s s)
    (htrans : ∀ s t u, R s t → R t u → R s u)
    (heval : ∀ s source out r t, source ∈ scene.graph.nodes →
      eval s source out = some (r, t) → R s t)
    {r : Except Fault Inputs} (h : gather scene eval node pins inputs s = some (r, t)) : R s t := by
  induction pins generalizing inputs s with
  | nil =>
    simp only [gather, Option.some.injEq, Prod.mk.injEq] at h
    exact h.2 ▸ hrefl s
  | cons pin pins ih =>
    rw [gather_cons] at h
    split at h
    · exact ih h
    · rename_i source out ho
      split at h
      · cases h
      · rename_i v u he
        exact htrans s u t (heval _ _ _ _ _ (mem_nodes_of_origin ho) he) (ih h)
      · rename_i fault u he
        cases h
        exact heval _ _ _ _ _ (mem_nodes_of_origin ho) he

/-- How an evaluation comes to its answer: from a look at the output, or by gathering the inputs of
its node. -/
theorem output_cases {depth : Nat} {r : Except Fault Value}
    (h : output scene depth s node pin = some (r, t)) :
    ready scene s node pin = (.ofExcept r, t) ∨
      ready scene s node pin = (.due, s) ∧ ∃ d, depth = d + 1 ∧ ∃ gathered,
        gather scene (output scene d) node node.dataInputs (Frame.start node pin).inputs
          (s.mark node.id) = some gathered ∧ complete node pin gathered = (r, t) := by
  cases depth with
  | zero => cases h
  | succ d =>
    rw [output] at h
    split at h
    · rename_i hr
      cases h
      exact .inl hr
    · rename_i hr
      cases h
      exact .inl hr
    · rename_i hr
      obtain ⟨rfl, -, -⟩ := ready_due hr
      obtain ⟨gathered, hg, hc⟩ := Option.map_eq_some_iff.mp h
      exact .inr ⟨hr, d, rfl, gathered, hg, hc⟩

/-- Whatever a look at an output keeps, and completing a node keeps if gathering its inputs does, is
kept by an evaluation. -/
theorem output_preserves {R : State → State → Prop} (hrefl : ∀ s, R s s)
    (htrans : ∀ s t u, R s t → R t u → R s u)
    (hready : ∀ s node pin, R s (ready scene s node pin).2)
    (hcomplete : ∀ s node pin gathered, ready scene s node pin = (.due, s) →
      R (s.mark node.id) gathered.2 → R s (complete node pin gathered).2)
    {depth : Nat} {r : Except Fault Value} (h : output scene depth s node pin = some (r, t)) :
    R s t := by
  induction depth generalizing s node pin r t with
  | zero => cases h
  | succ depth ih =>
    rcases output_cases h with hr | ⟨hd, d, hdepth, gathered, hg, hc⟩
    · have hR := hready s node pin
      rwa [hr] at hR
    · cases hdepth
      have hm := gather_preserves hrefl htrans (fun _ _ _ _ _ _ he => ih he) hg
      have hR := hcomplete s node pin gathered hd hm
      rwa [hc] at hR

end Recursive

theorem inProgress_compute (s : State) (f : Frame) :
    (compute s f).2.inProgress = s.inProgress.filter (· ≠ f.node.id) := by
  have h := ran_compute s f
  generalize compute s f = r at h
  cases h <;> rfl

theorem Recursive.inProgress_complete (node : Node) (pin : Pin)
    (gathered : Except Fault Inputs × State) :
    (complete node pin gathered).2.inProgress = gathered.2.inProgress.filter (· ≠ node.id) := by
  obtain ⟨r, t⟩ := gathered
  cases r with
  | error fault => rfl
  | ok inputs => exact inProgress_compute t _

theorem Recursive.inProgress_output {depth : Nat} {r : Except Fault Value}
    (h : Recursive.output scene depth s node pin = some (r, t)) : t.inProgress = s.inProgress := by
  refine Recursive.output_preserves (R := fun s t => t.inProgress = s.inProgress)
    (fun _ => rfl) (fun _ _ _ hst htu => htu.trans hst)
    (fun s node pin => (glances_ready scene s node pin).inProgress) ?_ h
  intro s node pin gathered hd ht
  rw [inProgress_complete, ht]
  exact State.filter_mark (ready_due hd).2.2

/-- `n` steps lead from one point of the evaluation to another. -/
inductive Takes (scene : Scene) : Progress → Nat → Progress → Prop
  | refl (p : Progress) : Takes scene p 0 p
  | head {s : State} {top : Frame} {below : List Frame} {n : Nat} {q : Progress}
      (h : Takes scene (step scene s top below) n q) : Takes scene (.running s top below) (n + 1) q

theorem Takes.trans {p q r : Progress} {m n : Nat} (hp : Takes scene p m q)
    (hq : Takes scene q n r) : Takes scene p (m + n) r := by
  induction hp with
  | refl p => simpa only [Nat.zero_add] using hq
  | head _ ih =>
    rw [Nat.add_right_comm]
    exact .head (ih hq)

theorem Takes.single {top : Frame} {below : List Frame} {q : Progress}
    (h : step scene s top below = q) : Takes scene (.running s top below) 1 q :=
  .head (h ▸ .refl _)

theorem loop_eq_of_takes {top : Frame} {below : List Frame} {n : Nat} {r : Except Fault Value}
    (h : Takes scene (.running s top below) n (.finished r t)) {fuel : Nat} (hn : n ≤ fuel) :
    loop scene fuel s top below = (r, t) := by
  induction fuel generalizing s top below n with
  | zero =>
    cases h
    omega
  | succ fuel ih =>
    cases h with
    | head h =>
      rw [loop]
      split
      · rename_i hs
        rw [hs] at h
        exact ih h (by omega)
      · rename_i hs
        rw [hs] at h
        cases h
        rfl

/-- Where the evaluation stands when the topmost frame has been worked off: what it came to goes to
the frame below, and a fault ends everything. -/
def resume (r : Except Fault Value) (s : State) (below : List Frame) : Progress :=
  match r, below with
  | .error fault, below => abandon s fault below
  | .ok v, [] => .finished (.ok v) s
  | .ok v, parent :: below => .running s (parent.bind parent.waiting v) below

theorem step_nil (scene : Scene) (s : State) (node : Node) (pin : Pin) (inputs : Inputs)
    (waiting : Text) (below : List Frame) :
    step scene s ⟨node, pin, [], inputs, waiting⟩ below =
      resume (compute s ⟨node, pin, [], inputs, waiting⟩).1
        (compute s ⟨node, pin, [], inputs, waiting⟩).2 below := by
  rcases hc : compute s ⟨node, pin, [], inputs, waiting⟩ with ⟨r, u⟩
  cases r with
  | error fault => simp only [step, hc, resume]
  | ok v => cases below <;> simp only [step, hc, resume]

theorem step_cons (scene : Scene) (s : State) (node : Node) (pin input : Pin) (pins : List Pin)
    (inputs : Inputs) (waiting : Text) (below : List Frame) :
    step scene s ⟨node, pin, input :: pins, inputs, waiting⟩ below =
      match origin scene.graph node input with
      | .value v => .running s ⟨node, pin, pins, inputs.insert input.label v, waiting⟩ below
      | .output source out =>
        match ready scene s source out with
        | (.known v, s) => .running s ⟨node, pin, pins, inputs.insert input.label v, waiting⟩ below
        | (.failed fault, s) => abandon (s.unmark node.id) fault below
        | (.due, s) =>
          .running (s.mark source.id) (.start source out)
            (⟨node, pin, pins, inputs, input.label⟩ :: below) := by
  unfold origin
  cases hw : scene.graph.incoming? node.id input.id with
  | none =>
    simp only [step, hw]
    rfl
  | some wire =>
    cases hs : scene.graph.source? wire with
    | none =>
      simp only [step, hw, hs]
      rfl
    | some p =>
      simp only [step, hw, hs]
      rfl

/-- A bound on the steps that a frame takes, where no node has more than `width` inputs. -/
def frameCost (width : Nat) : Nat → Nat
  | 0 => 0
  | depth + 1 => width * (frameCost width depth + 1) + 1

theorem frameCost_lt (width depth : Nat) : frameCost width depth < Nat.pow (width + 2) depth := by
  induction depth with
  | zero => exact Nat.one_pos
  | succ depth ih =>
    have hm : width * (frameCost width depth + 1) ≤ width * Nat.pow (width + 2) depth :=
      Nat.mul_le_mul_left width ih
    have hs : Nat.pow (width + 2) (depth + 1) =
        width * Nat.pow (width + 2) depth + 2 * Nat.pow (width + 2) depth := by
      rw [← Nat.add_mul, Nat.mul_comm]
      rfl
    rw [frameCost]
    omega

/-- What a frame comes to by resolving inputs: it goes on with them, or a fault ends everything. -/
def Gathers (scene : Scene) (p : Progress) (n : Nat) (node : Node) (pin : Pin) (pins : List Pin)
    (r : Except Fault Inputs) (s : State) (below : List Frame) : Prop :=
  match r with
  | .ok inputs => ∃ waiting, Takes scene p n (.running s ⟨node, pin, pins, inputs, waiting⟩ below)
  | .error fault => Takes scene p n (abandon (s.unmark node.id) fault below)

/-- The frame of a recursive call takes at most `cost` steps to hand on what the call returns. -/
def Follows (scene : Scene) (depth cost : Nat) : Prop :=
  ∀ (s : State) (node : Node) (pin : Pin) (r : Except Fault Value) (t : State),
    node ∈ scene.graph.nodes → ready scene s node pin = (.due, s) →
    Recursive.output scene depth s node pin = some (r, t) →
    ∀ below, ∃ n ≤ cost,
      Takes scene (.running (s.mark node.id) (.start node pin) below) n (resume r t below)

theorem Follows.input {depth cost : Nat} (hf : Follows scene depth cost) {input out : Pin}
    {source : Node} {r : Except Fault Value}
    (ho : origin scene.graph node input = .output source out)
    (h : Recursive.output scene depth s source out = some (r, t)) (pins : List Pin)
    (inputs : Inputs) (waiting : Text) (below : List Frame) :
    ∃ n ≤ cost + 1, Gathers scene (.running s ⟨node, pin, input :: pins, inputs, waiting⟩ below) n
      node pin pins (r.map (inputs.insert input.label)) t below := by
  have hs := step_cons scene s node pin input pins inputs waiting below
  rw [ho] at hs
  rcases Recursive.output_cases h with hr | ⟨hd, -⟩
  · refine ⟨1, Nat.le_add_left 1 cost, ?_⟩
    simp only [hr] at hs
    cases r with
    | ok v => exact ⟨waiting, .single hs⟩
    | error fault => exact .single hs
  · simp only [hd] at hs
    obtain ⟨n, hn, ht⟩ := hf s source out r t (mem_nodes_of_origin ho) hd h
      (⟨node, pin, pins, inputs, input.label⟩ :: below)
    refine ⟨n + 1, Nat.succ_le_succ hn, ?_⟩
    cases r with
    | ok v => exact ⟨input.label, .head (hs ▸ ht)⟩
    | error fault => exact .head (hs ▸ ht)

theorem Follows.gather {depth cost : Nat} (hf : Follows scene depth cost) (pin : Pin)
    {pins : List Pin} {inputs : Inputs} {r : Except Fault Inputs} (waiting : Text)
    (below : List Frame)
    (h : Recursive.gather scene (Recursive.output scene depth) node pins inputs s = some (r, t)) :
    ∃ n ≤ pins.length * (cost + 1),
      Gathers scene (.running s ⟨node, pin, pins, inputs, waiting⟩ below) n node pin [] r t
        below := by
  induction pins generalizing inputs s waiting with
  | nil =>
    cases h
    exact ⟨0, Nat.zero_le _, waiting, .refl _⟩
  | cons input pins ih =>
    rw [Recursive.gather_cons] at h
    have hl : (pins.length + 1) * (cost + 1) = pins.length * (cost + 1) + (cost + 1) :=
      Nat.succ_mul _ _
    -- The steps for this input, followed by those for the others.
    have hgo : ∀ {m : Nat} {u : State} {w : Text} {v : Value}, m ≤ cost + 1 →
        Takes scene (.running s ⟨node, pin, input :: pins, inputs, waiting⟩ below) m
          (.running u ⟨node, pin, pins, inputs.insert input.label v, w⟩ below) →
        Recursive.gather scene (Recursive.output scene depth) node pins
          (inputs.insert input.label v) u = some (r, t) →
        ∃ n ≤ (pins.length + 1) * (cost + 1),
          Gathers scene (.running s ⟨node, pin, input :: pins, inputs, waiting⟩ below) n
            node pin [] r t below := by
      intro m u w v hm hu hg
      obtain ⟨n, hn, ht⟩ := ih w hg
      refine ⟨m + n, by omega, ?_⟩
      cases r with
      | ok gathered => exact ⟨ht.choose, hu.trans ht.choose_spec⟩
      | error fault => exact hu.trans ht
    cases ho : origin scene.graph node input with
    | value v =>
      rw [ho] at h
      have hs := step_cons scene s node pin input pins inputs waiting below
      rw [ho] at hs
      exact hgo (Nat.le_add_left 1 cost) (.single hs) h
    | output source out =>
      simp only [ho] at h
      split at h
      · cases h
      · rename_i v u he
        obtain ⟨m, hm, w, hu⟩ := hf.input ho he pins inputs waiting below
        exact hgo hm hu h
      · rename_i fault u he
        cases h
        obtain ⟨m, hm, hu⟩ := hf.input ho he pins inputs waiting below
        exact ⟨m, by rw [List.length_cons]; omega, hu⟩

theorem Follows.succ {depth cost width : Nat} (hf : Follows scene depth cost)
    (hw : ∀ n ∈ scene.graph.nodes, n.dataInputs.length ≤ width) :
    Follows scene (depth + 1) (width * (cost + 1) + 1) := by
  intro s node pin r t hn hd h below
  rcases Recursive.output_cases h with hr | ⟨-, d, hdepth, ⟨g, u⟩, hg, hc⟩
  · rw [hd] at hr
    cases r <;> cases hr
  · cases hdepth
    obtain ⟨n, hle, ht⟩ := hf.gather pin "" below hg
    have hcost := Nat.mul_le_mul_right (cost + 1) (hw node hn)
    cases g with
    | ok inputs =>
      obtain ⟨w, ht⟩ := ht
      have hs := step_nil scene u node pin inputs w below
      have hcw : compute u ⟨node, pin, [], inputs, w⟩ = (r, t) := hc
      rw [hcw] at hs
      exact ⟨n + 1, by omega, ht.trans (.single hs)⟩
    | error fault =>
      cases hc
      exact ⟨n, by omega, ht⟩

theorem follows {width : Nat} (hw : ∀ n ∈ scene.graph.nodes, n.dataInputs.length ≤ width)
    (depth : Nat) : Follows scene depth (frameCost width depth) := by
  induction depth with
  | zero => intro s node pin r t hn hd h; cases h
  | succ depth ih => exact ih.succ hw

def width (g : Graph) : Nat := (g.nodes.map fun n => n.inputs.length).foldl max 0

theorem le_foldl_max (xs : List Nat) (a : Nat) :
    a ≤ xs.foldl max a ∧ ∀ x ∈ xs, x ≤ xs.foldl max a := by
  induction xs generalizing a with
  | nil => exact ⟨le_rfl, by simp⟩
  | cons y xs ih =>
    obtain ⟨ha, hx⟩ := ih (max a y)
    refine ⟨(le_max_left a y).trans ha, ?_⟩
    intro x hm
    rcases List.mem_cons.mp hm with rfl | hm
    · exact (le_max_right a x).trans ha
    · exact hx x hm

theorem length_dataInputs_le {g : Graph} (h : node ∈ g.nodes) :
    node.dataInputs.length ≤ width g :=
  (List.length_filter_le _ _).trans
    ((le_foldl_max _ 0).2 _ (List.mem_map_of_mem h))

theorem output_eq_of_recursive {depth : Nat} {r : Except Fault Value}
    (hn : node ∈ scene.graph.nodes) (hd : depth ≤ Recursive.depthBound scene.graph)
    (h : Recursive.output scene depth s node pin = some (r, t)) :
    output scene s node pin = (r, t) := by
  rcases Recursive.output_cases h with hr | ⟨hr, -⟩
  · rw [output, hr]
    cases r <;> rfl
  · obtain ⟨n, hle, ht⟩ :=
      follows (fun _ hm => length_dataInputs_le hm) depth s node pin r t hn hr h []
    have hb : frameCost (width scene.graph) depth < stepBound scene.graph :=
      (frameCost_lt _ _).trans_le (Nat.pow_le_pow_right (Nat.succ_pos _) hd)
    rw [output, hr]
    cases r with
    | ok v => exact loop_eq_of_takes ht (hle.trans hb.le)
    | error fault => exact loop_eq_of_takes ht (hle.trans hb.le)

def idle (g : Graph) (s : State) : Finset Text :=
  g.nodeIndex.keys.toFinset \ s.inProgress.toFinset

theorem card_idle_le (g : Graph) (s : State) : (idle g s).card ≤ g.size :=
  calc (idle g s).card ≤ g.nodeIndex.keys.toFinset.card := Finset.card_le_card Finset.sdiff_subset
    _ ≤ g.nodeIndex.keys.length := List.toFinset_card_le _
    _ = g.size := List.length_map _

theorem card_idle_mark_lt {g : Graph} (hn : node ∈ g.nodes) (hp : node.id ∉ s.inProgress) :
    (idle g (s.mark node.id)).card < (idle g s).card := by
  have he : idle g (s.mark node.id) = (idle g s).erase node.id := by
    rw [idle, State.inProgress_mark, List.toFinset_cons, Finset.sdiff_insert]
    rfl
  rw [he]
  apply Finset.card_erase_lt_of_mem
  rw [idle, Finset.mem_sdiff, List.mem_toFinset, List.mem_toFinset]
  exact ⟨Graph.id_mem_keys hn, hp⟩

namespace Recursive

/-- Gathering gives an answer if every evaluation does that finds the same nodes in progress. -/
theorem gather_total (node : Node) {depth : Nat} {marks : List Text}
    (heval : ∀ (s : State) (source : Node) (out : Pin), source ∈ scene.graph.nodes →
      s.inProgress = marks → ∃ r, output scene depth s source out = some r)
    (pins : List Pin) (inputs : Inputs) (hs : s.inProgress = marks) :
    ∃ r, gather scene (output scene depth) node pins inputs s = some r := by
  induction pins generalizing inputs s with
  | nil => exact ⟨_, rfl⟩
  | cons pin pins ih =>
    rw [gather_cons]
    split
    · exact ih _ hs
    · rename_i source out ho
      obtain ⟨⟨r, u⟩, hr⟩ := heval s source out (mem_nodes_of_origin ho) hs
      have hu : u.inProgress = marks := (inProgress_output hr).trans hs
      rw [hr]
      cases r with
      | ok v => exact ih _ hu
      | error fault => exact ⟨_, rfl⟩

/-- The recursion only goes deeper at nodes that are not in progress, of which there are fewer each
time. -/
theorem output_total (pin : Pin) {depth : Nat} (hn : node ∈ scene.graph.nodes)
    (hd : (idle scene.graph s).card < depth) : ∃ r, output scene depth s node pin = some r := by
  induction depth generalizing s node pin with
  | zero => exact absurd hd (Nat.not_lt_zero _)
  | succ depth ih =>
    rw [output]
    split
    · exact ⟨_, rfl⟩
    · exact ⟨_, rfl⟩
    · rename_i u hr
      obtain ⟨hu, -, hp⟩ := ready_due hr
      subst hu
      have hlt := card_idle_mark_lt hn hp
      have heval : ∀ (v : State) (source : Node) (out : Pin), source ∈ scene.graph.nodes →
          v.inProgress = (u.mark node.id).inProgress →
          ∃ r, output scene depth v source out = some r := by
        intro v source out hm hv
        have hi : idle scene.graph v = idle scene.graph (u.mark node.id) := by rw [idle, hv, idle]
        exact ih out hm (by rw [hi]; omega)
      obtain ⟨g, hg⟩ := gather_total node heval node.dataInputs
        (Frame.start node pin).inputs rfl
      exact ⟨complete node pin g, by rw [Option.map_eq_some_iff]; exact ⟨g, hg, rfl⟩⟩

theorem gather_mono {eval eval' : State → Node → Pin → Option (Except Fault Value × State)}
    (heval : ∀ s source out r, eval s source out = some r → eval' s source out = some r)
    {pins : List Pin} {inputs : Inputs} {r : Except Fault Inputs × State}
    (h : gather scene eval node pins inputs s = some r) :
    gather scene eval' node pins inputs s = some r := by
  induction pins generalizing inputs s with
  | nil => exact h
  | cons pin pins ih =>
    rw [gather_cons] at h ⊢
    split
    · rename_i v ho
      simp only [ho] at h
      exact ih h
    · rename_i source out ho
      simp only [ho] at h
      split at h
      · cases h
      · rename_i v u he
        rw [heval _ _ _ _ he]
        exact ih h
      · rename_i fault u he
        rw [heval _ _ _ _ he]
        exact h

theorem output_mono {depth depth' : Nat} (hle : depth ≤ depth') {r : Except Fault Value × State}
    (h : output scene depth s node pin = some r) : output scene depth' s node pin = some r := by
  induction depth generalizing depth' s node pin r with
  | zero => cases h
  | succ depth ih =>
    obtain ⟨k, rfl⟩ : ∃ k, depth' = k + 1 := ⟨depth' - 1, by omega⟩
    rw [output] at h ⊢
    split
    · rename_i hr
      simpa only [hr] using h
    · rename_i hr
      simpa only [hr] using h
    · rename_i hr
      simp only [hr] at h
      obtain ⟨g, hg, hc⟩ := Option.map_eq_some_iff.mp h
      have hg' := gather_mono (fun _ _ _ _ he => ih (Nat.le_of_succ_le_succ hle) he) hg
      exact Option.map_eq_some_iff.mpr ⟨g, hg', hc⟩

end Recursive

theorem recursive_eq_some_output (s : State) (hn : node ∈ scene.graph.nodes) (pin : Pin) :
    Recursive.output scene (Recursive.depthBound scene.graph) s node pin =
      some (output scene s node pin) := by
  have hlt : (idle scene.graph s).card < Recursive.depthBound scene.graph :=
    Nat.lt_succ_of_le (card_idle_le scene.graph s)
  obtain ⟨⟨r, t⟩, h⟩ := Recursive.output_total pin hn hlt
  rw [h, output_eq_of_recursive hn le_rfl h]

/-- The stack and the recursion give the same value or fault, the same trace, results, number of
hits and generator, and leave the same nodes in progress, whatever the state they begin in. -/
theorem recursion_eq_stack (scene : Scene) (s : State) (hn : node ∈ scene.graph.nodes) (pin : Pin)
    {depth : Nat} (hd : Recursive.depthBound scene.graph ≤ depth) :
    Recursive.output scene depth s node pin = some (output scene s node pin) :=
  Recursive.output_mono hd (recursive_eq_some_output s hn pin)

namespace Entangled

def sum : Node :=
  { id := "sum"
    kind := .addInteger
    inputs := [⟨"a", "sum", "A", .integer, .input⟩, ⟨"b", "sum", "B", .integer, .input⟩]
    outputs := [⟨"result", "sum", "Result", .integer, .output⟩] }

def result : Pin := ⟨"result", "sum", "Result", .integer, .output⟩

def text : Node :=
  { id := "text"
    kind := .toString
    inputs := [⟨"value", "text", "Value", .any, .input⟩]
    outputs := [⟨"result", "text", "Result", .string, .output⟩] }

def graph : Graph := .ofLists [sum, text]
  [⟨"1", "text", "result", "sum", "a", .string⟩, ⟨"2", "sum", "result", "sum", "b", .integer⟩,
    ⟨"3", "sum", "result", "text", "value", .any⟩]

def emptyScene : Scene := { graph, bindings := {}, loops := {} }

def beginning : State := { generator := default }

theorem sum_mem_nodes : sum ∈ graph.nodes := List.mem_cons_self

theorem recursion_eq_stack_sum :
    sum ∈ graph.nodes ∧ Recursive.depthBound graph ≤ 3 ∧
      Recursive.output emptyScene 3 beginning sum result =
        some (output emptyScene beginning sum result) :=
  ⟨sum_mem_nodes, by decide, recursion_eq_stack emptyScene _ sum_mem_nodes _ (by decide)⟩

end Entangled

end NodeScript.Evaluation
