import NodeScript.Proofs.CacheSoundness

/-!
The stack of an evaluation. A frame is opened only for a node that is not in progress and marks it;
the mark goes with the frame, whether the frame is worked off or given up. So the frames on the
stack stand for different nodes, and these are the nodes in progress.
-/

namespace NodeScript.Evaluation

variable {scene : Scene} {g : Graph} {s t : State} {node : Node} {pin : Pin} {top f : Frame}
  {below stack : List Frame} {p q : Progress} {n : Nat}

inductive Call
  | evaluate (nodeId pinId : Text)
  | inputValue (node : Node) (label : Text)

def begun (scene : Scene) (s : State) (node : Node) (pin : Pin) : Progress :=
  match ready scene s node pin with
  | (.known v, s) => .finished (.ok v) s
  | (.failed fault, s) => .finished (.error fault) s
  | (.due, s) => .running (s.mark node.id) (.start node pin) []

namespace Call

def answer (scene : Scene) (s : State) : Call → Except Fault Value × State
  | evaluate nodeId pinId => Evaluation.evaluate scene s nodeId pinId
  | inputValue node label => Evaluation.inputValue scene s node label

def origin (g : Graph) : Call → Origin
  | evaluate nodeId pinId =>
    match g.node? nodeId with
    | none => .value .null
    | some node =>
      match node.outputs.find? (·.id = pinId) with
      | some pin => .output node pin
      | none =>
        match node.inputs.find? (·.id = pinId) with
        | some pin => Evaluation.origin g node pin
        | none => .value .null
  | inputValue node label =>
    match node.inputPin? label with
    | none => .value (fallback node label)
    | some pin => Evaluation.origin g node pin

def begun (scene : Scene) (s : State) (c : Call) : Progress :=
  match c.origin scene.graph with
  | .value v => .finished (.ok v) s
  | .output node pin => Evaluation.begun scene s node pin

theorem answer_eq (scene : Scene) (s : State) (c : Call) :
    c.answer scene s =
      match c.origin scene.graph with
      | .value v => (.ok v, s)
      | .output node pin => output scene s node pin := by
  cases c with
  | evaluate nodeId pinId =>
    simp only [answer, Evaluation.evaluate, origin]
    cases scene.graph.node? nodeId with
    | none => rfl
    | some node =>
      dsimp only
      cases node.outputs.find? (·.id = pinId) with
      | some pin => rfl
      | none =>
        cases node.inputs.find? (·.id = pinId) with
        | some pin => exact input_eq scene s node pin
        | none => rfl
  | inputValue node label =>
    simp only [answer, Evaluation.inputValue, origin]
    cases node.inputPin? label with
    | none => rfl
    | some pin => exact input_eq scene s node pin

theorem mem_nodes {c : Call} (h : c.origin g = .output node pin) : node ∈ g.nodes := by
  cases c with
  | evaluate nodeId pinId =>
    simp only [origin] at h
    split at h
    · cases h
    · rename_i m hm
      split at h
      · cases h
        exact Graph.mem_nodes_of_node? hm
      · split at h
        · exact mem_nodes_of_origin h
        · cases h
  | inputValue m label =>
    simp only [origin] at h
    split at h
    · cases h
    · exact mem_nodes_of_origin h

end Call

theorem compute_error {fault : Fault} (h : compute s f = (.error fault, t)) :
    t = s.unmark f.node.id := by
  cases Ran.of_eq h with
  | fault hk ho => rfl

/-- What a step comes to: an input is bound after a look at the output it is wired to, a frame is
opened for that output, the operation of the topmost frame is completed, or there is a fault. -/
inductive Moves (scene : Scene) (s : State) (top : Frame) (below : List Frame) : Progress → Prop
  | binds {t : State} {f : Frame} (hp : top.pending ≠ []) (hnode : f.node = top.node)
      (hpin : f.pin = top.pin) (ht : Glances s t) : Moves scene s top below (.running t f below)
  | opens {f : Frame} {source : Node} {out : Pin} (hp : top.pending ≠ [])
      (hnode : f.node = top.node) (hpin : f.pin = top.pin) (hsource : source ∈ scene.graph.nodes)
      (hd : ready scene s source out = (.due, s)) :
      Moves scene s top below (.running (s.mark source.id) (.start source out) (f :: below))
  | completes {v : Value} {t : State} (hp : top.pending = []) (hc : compute s top = (.ok v, t)) :
      Moves scene s top below (resume (.ok v) t below)
  | fails {fault : Fault} (hc : top.pending = [] → (compute s top).1 = .error fault) :
      Moves scene s top below (abandon (s.unmark top.node.id) fault below)

theorem moves_step (scene : Scene) (s : State) (top : Frame) (below : List Frame) :
    Moves scene s top below (step scene s top below) := by
  obtain ⟨node, pin, pending, inputs, waiting⟩ := top
  cases pending with
  | nil =>
    rw [step_nil]
    rcases hc : compute s ⟨node, pin, [], inputs, waiting⟩ with ⟨fault | v, u⟩
    · cases compute_error hc
      exact .fails fun _ => congrArg Prod.fst hc
    · exact .completes rfl hc
  | cons input pins =>
    have hp : (⟨node, pin, input :: pins, inputs, waiting⟩ : Frame).pending ≠ [] :=
      List.cons_ne_nil _ _
    rw [step_cons]
    cases ho : origin scene.graph node input with
    | value v => exact .binds hp rfl rfl (.refl s)
    | output source out =>
      have hg := glances_ready scene s source out
      dsimp only
      rcases hr : ready scene s source out with ⟨v | fault | _, u⟩
      · rw [hr] at hg
        exact .binds hp rfl rfl hg
      · cases (ready_failed hr).1
        exact .fails fun hnil => absurd hnil hp
      · cases (ready_due hr).1
        exact .opens hp rfl rfl (mem_nodes_of_origin ho) hr

theorem Takes.invariant {P : Progress → Prop}
    (hstep : ∀ s top below, P (.running s top below) → P (step scene s top below))
    (h : Takes scene p n q) (hp : P p) : P q := by
  induction h with
  | refl p => exact hp
  | head _ ih => exact ih (hstep _ _ _ hp)

/-- The frames of a stack stand for different nodes of the graph, and these are the nodes in
progress. -/
structure Tracked (g : Graph) (s : State) (stack : List Frame) : Prop where
  nodup : (stack.map (·.node.id)).Nodup
  mem_nodes : ∀ f ∈ stack, f.node ∈ g.nodes
  inProgress : s.inProgress = stack.map (·.node.id)

theorem Tracked.length_le (h : Tracked g s stack) : stack.length ≤ g.size := by
  have hsub : stack.map (·.node.id) ⊆ g.nodeIndex.keys := by
    intro id hid
    obtain ⟨f, hf, rfl⟩ := List.mem_map.mp hid
    exact Graph.id_mem_keys (h.mem_nodes f hf)
  calc stack.length = (stack.map (·.node.id)).length := (List.length_map _).symm
    _ ≤ g.nodeIndex.keys.length := (h.nodup.subperm hsub).length_le
    _ = g.size := List.length_map _

theorem Tracked.replace (h : Tracked g s (top :: below)) (ht : t.inProgress = s.inProgress)
    (hf : f.node = top.node) : Tracked g t (f :: below) := by
  have hids : (f :: below).map (·.node.id) = (top :: below).map (·.node.id) := by simp [hf]
  refine ⟨hids ▸ h.nodup, fun x hx => ?_, ht.trans (hids ▸ h.inProgress)⟩
  rcases List.mem_cons.mp hx with rfl | hx
  · exact hf ▸ h.mem_nodes top List.mem_cons_self
  · exact h.mem_nodes x (List.mem_cons_of_mem _ hx)

theorem Tracked.push (h : Tracked g s stack) (hn : node ∈ g.nodes) (hid : node.id ∉ s.inProgress) :
    Tracked g (s.mark node.id) (.start node pin :: stack) := by
  refine ⟨?_, fun x hx => ?_, congrArg (node.id :: ·) h.inProgress⟩
  · rw [List.map_cons, List.nodup_cons, ← h.inProgress]
    exact ⟨hid, h.inProgress ▸ h.nodup⟩
  · rcases List.mem_cons.mp hx with rfl | hx
    · exact hn
    · exact h.mem_nodes x hx

theorem Tracked.pop (h : Tracked g s (top :: below))
    (ht : t.inProgress = s.inProgress.filter (· ≠ top.node.id)) : Tracked g t below := by
  have hnodup := h.nodup
  rw [List.map_cons, List.nodup_cons] at hnodup
  refine ⟨hnodup.2, fun x hx => h.mem_nodes x (List.mem_cons_of_mem _ hx), ?_⟩
  rw [ht, h.inProgress, List.map_cons, List.filter_cons_of_neg (by simp), List.filter_eq_self]
  intro id hid
  simpa using ne_of_mem_of_not_mem hid hnodup.1

theorem Tracked.abandon (h : Tracked g s stack) :
    (stack.foldl (fun s f => s.unmark f.node.id) s).inProgress = [] := by
  induction stack generalizing s with
  | nil => exact h.inProgress
  | cons f stack ih => exact ih (h.pop rfl)

def Progress.Tracked (g : Graph) : Progress → Prop
  | .running s top below => Evaluation.Tracked g s (top :: below)
  | .finished _ s => s.inProgress = []

theorem tracked_step (h : Tracked scene.graph s (top :: below)) :
    (step scene s top below).Tracked scene.graph := by
  have hm := moves_step scene s top below
  generalize step scene s top below = p at hm ⊢
  cases hm with
  | binds hp hnode hpin ht => exact h.replace ht.inProgress hnode
  | opens hp hnode hpin hsource hd => exact (h.replace rfl hnode).push hsource (ready_due hd).2.2
  | completes hp hc =>
    have hpop := h.pop ((congrArg (·.2.inProgress) hc).symm.trans (inProgress_compute s top))
    cases below with
    | nil => exact hpop.inProgress
    | cons parent below => exact hpop.replace rfl rfl
  | fails hc => exact (h.pop rfl).abandon

theorem Takes.tracked (h : Takes scene p n q) (hp : p.Tracked scene.graph) :
    q.Tracked scene.graph :=
  h.invariant (fun _ _ _ => tracked_step) hp

theorem tracked_begun (hn : node ∈ scene.graph.nodes) (hs : s.inProgress = []) (pin : Pin) :
    (begun scene s node pin).Tracked scene.graph := by
  have hg := (glances_ready scene s node pin).inProgress
  unfold begun
  rcases hr : ready scene s node pin with ⟨v | fault | _, u⟩
  · rw [hr] at hg
    exact hg.trans hs
  · rw [hr] at hg
    exact hg.trans hs
  · obtain ⟨rfl, -, hid⟩ := ready_due hr
    have hempty : Tracked scene.graph u [] :=
      ⟨List.nodup_nil, fun _ h => absurd h List.not_mem_nil, hs⟩
    exact hempty.push hn hid

theorem takes_output (s : State) (hn : node ∈ scene.graph.nodes) (pin : Pin) :
    ∃ n ≤ stepBound scene.graph, Takes scene (begun scene s node pin) n
      (.finished (output scene s node pin).1 (output scene s node pin).2) := by
  have hrec := recursive_eq_some_output s hn pin
  generalize output scene s node pin = x at hrec ⊢
  obtain ⟨r, t⟩ := x
  unfold begun
  rcases Recursive.output_cases hrec with hr | ⟨hr, -⟩
  · refine ⟨0, Nat.zero_le _, ?_⟩
    rw [hr]
    cases r <;> exact .refl _
  · obtain ⟨n, hle, ht⟩ :=
      follows (fun _ hm => length_dataInputs_le hm) _ s node pin r t hn hr hrec []
    have hb : frameCost (width scene.graph) (Recursive.depthBound scene.graph) <
        stepBound scene.graph := frameCost_lt _ _
    refine ⟨n, hle.trans hb.le, ?_⟩
    rw [hr]
    cases r <;> exact ht

theorem Call.takes_answer (scene : Scene) (s : State) (c : Call) :
    ∃ n ≤ stepBound scene.graph, Takes scene (c.begun scene s) n
      (.finished (c.answer scene s).1 (c.answer scene s).2) := by
  rw [answer_eq, begun]
  cases ho : c.origin scene.graph with
  | value v => exact ⟨0, Nat.zero_le _, .refl _⟩
  | output node pin => exact takes_output s (mem_nodes ho) pin

theorem Call.tracked_begun (hs : s.inProgress = []) (c : Call) :
    (c.begun scene s).Tracked scene.graph := by
  rw [begun]
  cases ho : c.origin scene.graph with
  | value v => exact hs
  | output node pin => exact Evaluation.tracked_begun (mem_nodes ho) hs pin

theorem Call.inProgress_answer (hs : s.inProgress = []) (c : Call) :
    (c.answer scene s).2.inProgress = [] := by
  obtain ⟨n, -, h⟩ := c.takes_answer scene s
  exact h.tracked (c.tracked_begun hs)

/-- A call comes to an end, after no more steps than the bound says. At each of them the frames of
the stack stand for different nodes of the graph, which are the nodes in progress, and there are no
more of them than nodes. In the end no node is in progress, whether there is a value or a fault. -/
theorem call_unwinds (scene : Scene) (hs : s.inProgress = []) (c : Call) :
    (∃ n ≤ stepBound scene.graph, Takes scene (c.begun scene s) n
      (.finished (c.answer scene s).1 (c.answer scene s).2)) ∧
    (∀ n t top below, Takes scene (c.begun scene s) n (.running t top below) →
      Tracked scene.graph t (top :: below) ∧ (top :: below).length ≤ scene.graph.size) ∧
    (c.answer scene s).2.inProgress = [] := by
  refine ⟨c.takes_answer scene s, fun n t top below ht => ?_, c.inProgress_answer hs⟩
  have h : Tracked scene.graph t (top :: below) := ht.tracked (c.tracked_begun hs)
  exact ⟨h, h.length_le⟩

namespace Entangled

/-- After one step there is a frame for each of the two nodes. -/
theorem call_unwinds_sum :
    beginning.inProgress = [] ∧
    (∃ t top below,
      Takes emptyScene ((Call.evaluate "sum" "result").begun emptyScene beginning) 1
        (.running t top below) ∧
      t.inProgress = ["text", "sum"] ∧ Tracked graph t (top :: below)) ∧
    ((Call.evaluate "sum" "result").answer emptyScene beginning).2.inProgress = [] := by
  obtain ⟨-, hpoints, hend⟩ :=
    call_unwinds emptyScene (s := beginning) rfl (.evaluate "sum" "result")
  refine ⟨rfl, ⟨_, _, _, .single rfl, by decide +kernel, ?_⟩, hend⟩
  exact (hpoints 1 _ _ _ (.single rfl)).1

end Entangled

end NodeScript.Evaluation
