import NodeScript.Proofs.CacheSoundness
import NodeScript.Run

/-!
What a visit does to the state of a run. Behaviours are made of a few elementary changes, so that
a relation which holds of these holds of every behaviour.
-/

namespace NodeScript

/-- The entry is written when the visits of a run are over: the report of what is still queued, or
the listing of the variables. -/
def Entry.isClosing : Entry → Bool
  | trailer _ => true
  | error (.stepLimit ..) => true
  | _ => false

namespace Run

variable {α β : Type} {R : State → State → Prop} {P : α → Prop} {Q : β → Prop} {setting : Setting}

/-- Whatever its outcome, the action leads to a related state, and what it returns has the
property. -/
def Ensures (R : State → State → Prop) (P : α → Prop) (a : Action α) : Prop :=
  ∀ s, R s (a s).2 ∧ ∀ x, (a s).1 = .ok x → P x

theorem bind_apply (a : Action α) (f : α → Action β) (s : State) :
    (a >>= f) s =
      match a s with
      | (.ok x, t) => f x t
      | (.error fault, t) => (.error fault, t) := by
  simp only [bind, ExceptT.bind, ExceptT.mk, StateT.bind, ExceptT.bindCont]
  rcases a s with ⟨r, t⟩
  cases r <;> rfl

theorem bind_congr {α β : Type} {a a' : Action α} {f f' : α → Action β} {s : State}
    (ha : a s = a' s) (hf : ∀ x t, a' s = (.ok x, t) → f x t = f' x t) :
    (a >>= f) s = (a' >>= f') s := by
  rw [bind_apply, bind_apply, ha]
  rcases h : a' s with ⟨fault | x, t⟩
  · rfl
  · exact hf x t h

theorem exists_of_bind_eq_ok {α β : Type} {a : Action α} {f : α → Action β} {s u : State} {y : β}
    (h : (a >>= f) s = (.ok y, u)) : ∃ x t, a s = (.ok x, t) ∧ f x t = (.ok y, u) := by
  rw [bind_apply] at h
  rcases he : a s with ⟨fault | x, t⟩
  · rw [he] at h
    cases h
  · rw [he] at h
    exact ⟨x, t, rfl, h⟩

/-- A relation that reading inputs and warning keeps. -/
structure WarnStable (setting : Setting) (R : State → State → Prop) : Prop where
  refl : ∀ s, R s s
  trans : ∀ {s t u}, R s t → R t u → R s u
  read : ∀ s node label, R s (read setting node label s).2
  warn : ∀ s node message, R s (modifyTrace (·.warn node message) s).2

/-- A relation that reading inputs and writing to the trace keeps. -/
structure ReadStable (setting : Setting) (R : State → State → Prop) : Prop extends
    WarnStable setting R where
  trace : ∀ s (e : Entry), e.isClosing = false → R s (modifyTrace (·.append e) s).2
  warn := fun s node message => trace s (.warning node message) rfl

/-- A relation that everything which behaviours other than those of loops do keeps. -/
structure WriteStable (setting : Setting) (R : State → State → Prop) : Prop extends
    ReadStable setting R where
  bindings : ∀ s bindings, R s { s with bindings }
  bump : ∀ s, R s (bump s).2

/-- A relation that everything which behaviours do keeps. -/
structure Stable (setting : Setting) (R : State → State → Prop) : Prop extends
    WriteStable setting R where
  loops : ∀ s loops, R s { s with loops }

namespace WarnStable

theorem ensures_pure (h : WarnStable setting R) {x : α} (hx : P x) :
    Ensures R P (pure x : Action α) := by
  intro s
  refine ⟨h.refl s, fun y hy => ?_⟩
  cases hy
  exact hx

theorem ensures_lift (h : WarnStable setting R) (e : Except Fault α) :
    Ensures R (fun _ => True) (liftM e : Action α) := fun s => ⟨h.refl s, fun _ _ => trivial⟩

theorem ensures_read (h : WarnStable setting R) (node : Node) (label : Text) :
    Ensures R (fun _ => True) (Run.read setting node label) :=
  fun s => ⟨h.read s node label, fun _ _ => trivial⟩

theorem ensures_warn (h : WarnStable setting R) (node : Node) (message : Text) :
    Ensures R (fun _ => True) (modifyTrace (·.warn node message)) :=
  fun s => ⟨h.warn s node message, fun _ _ => trivial⟩

theorem ensures_bind (h : WarnStable setting R) {a : Action α} {f : α → Action β}
    (ha : Ensures R P a) (hf : ∀ x, P x → Ensures R Q (f x)) : Ensures R Q (a >>= f) := by
  intro s
  obtain ⟨hs, hx⟩ := ha s
  rw [bind_apply]
  rcases he : a s with ⟨r, t⟩
  rw [he] at hs hx
  cases r with
  | ok x =>
    obtain ⟨ht, hy⟩ := hf x (hx x rfl) t
    exact ⟨h.trans hs ht, hy⟩
  | error fault => exact ⟨hs, fun y hy => by cases hy⟩

theorem ensures_readCondition (h : WarnStable setting R) (node : Node) :
    Ensures R (fun _ => True) (readCondition setting node) :=
  h.ensures_bind (h.ensures_read node _) fun _ _ => h.ensures_pure trivial

theorem ensures_variableName (h : WarnStable setting R) (node : Node) :
    Ensures R (fun _ => True) (variableName node) := by
  have hmissing := h.ensures_bind (h.ensures_warn node "has no variable name. Skipping.")
    fun _ _ => h.ensures_pure (x := (none : Option Text)) (P := fun _ => True) trivial
  unfold variableName
  dsimp only
  split
  · exact hmissing
  · refine h.ensures_bind (h.ensures_lift _) fun name _ => ?_
    split
    · exact hmissing
    · exact h.ensures_pure trivial

theorem ensures_beginLoop (h : WarnStable setting R) (node : Node) :
    Ensures R (fun _ => True) (beginLoop setting node) := by
  refine h.ensures_bind (h.ensures_read node _) fun rawStart _ => ?_
  refine h.ensures_bind (h.ensures_read node _) fun rawLast _ => ?_
  split
  · refine h.ensures_bind (h.ensures_read node _) fun rawStep _ => ?_
    dsimp only
    split
    · exact h.ensures_pure trivial
    · refine h.ensures_bind (h.ensures_lift _) fun shown _ => ?_
      exact h.ensures_bind (h.ensures_warn node _) fun _ _ => h.ensures_pure trivial
  · refine h.ensures_bind (h.ensures_lift _) fun start _ => ?_
    refine h.ensures_bind (h.ensures_lift _) fun last _ => ?_
    exact h.ensures_bind (h.ensures_warn node _) fun _ _ => h.ensures_pure trivial

end WarnStable

theorem ReadStable.ensures_trace (h : ReadStable setting R) {e : Entry}
    (he : e.isClosing = false) : Ensures R (fun _ => True) (modifyTrace (·.append e)) :=
  fun s => ⟨h.trace s e he, fun _ _ => trivial⟩

theorem mem_nodes_of_mem_successors {g : Graph} {node m : Node} {pins : List Pin}
    (h : m ∈ g.successors node pins) : m ∈ g.nodes := by
  obtain ⟨pin, -, hm⟩ := List.mem_flatMap.mp h
  obtain ⟨wire, -, hw⟩ := List.mem_filterMap.mp hm
  exact Graph.mem_nodes_of_node? hw

def InGraph (setting : Setting) (next : List Node) : Prop := ∀ m ∈ next, m ∈ setting.graph.nodes

theorem inGraph_successors (node : Node) (pins : List Pin) :
    InGraph setting (setting.graph.successors node pins) :=
  fun _ hm => mem_nodes_of_mem_successors hm

theorem inGraph_follow (node : Node) (label : Text) :
    InGraph setting (setting.graph.follow node label) := inGraph_successors node _

/-- What the visit of a counting loop does once the loop is under way. -/
def proceed (setting : Setting) (node : Node) (state : ForState) : Action (List Node) := do
  let (outcome, state) ← (state.advance setting.config.maxLoopIterations : Except Fault _)
  modifyLoops (·.startFor node.id state)
  afterLoopStep setting node outcome

theorem proceed_eq {node : Node} {state state' : ForState} {outcome : LoopStep}
    (h : state.advance setting.config.maxLoopIterations = .ok (outcome, state')) (s : State) :
    proceed setting node state s =
      afterLoopStep setting node outcome { s with loops := s.loops.startFor node.id state' } := by
  unfold proceed
  rw [h]
  rfl

theorem visitForLoop_apply (setting : Setting) (node : Node) (s : State) :
    visitForLoop setting node s =
      match s.loops.counting.get? node.id with
      | some state => proceed setting node state s
      | none =>
        match beginLoop setting node s with
        | (.ok none, t) => (.ok (setting.graph.follow node completed), t)
        | (.ok (some state), t) =>
          proceed setting node state { t with loops := t.loops.startFor node.id state }
        | (.error fault, t) => (.error fault, t) := by
  have hget : (get : Action State) s = (.ok s, s) := rfl
  unfold visitForLoop
  rw [bind_apply, hget]
  dsimp only
  cases s.loops.counting.get? node.id with
  | some state => rfl
  | none =>
    dsimp only
    rw [bind_apply]
    rcases beginLoop setting node s with ⟨r, t⟩
    rcases r with fault | _ | state <;> rfl

theorem visitWhileLoop_apply (setting : Setting) (node : Node) (s : State) :
    visitWhileLoop setting node s =
      match readCondition setting node
        { s with loops := s.loops.setWhile node.id (s.loops.iterations node.id) } with
      | (.ok condition, t) =>
        match advanceWhile setting.config.maxLoopIterations condition
          ((s.loops.setWhile node.id (s.loops.iterations node.id)).iterations node.id) with
        | .ok (outcome, iterations) =>
          afterLoopStep setting node outcome
            { t with loops := t.loops.setWhile node.id iterations }
        | .error fault => (.error fault, t)
      | (.error fault, t) => (.error fault, t) := by
  let s' : State := { s with loops := s.loops.setWhile node.id (s.loops.iterations node.id) }
  have hset : modifyLoops (fun ls => ls.setWhile node.id (ls.iterations node.id)) s =
      (.ok (), s') := rfl
  have hget : (get : Action State) s' = (.ok s', s') := rfl
  unfold visitWhileLoop
  rw [bind_apply, hset]
  dsimp only
  rw [bind_apply, hget]
  dsimp only
  rw [bind_apply]
  rcases readCondition setting node s' with ⟨fault | condition, t⟩
  · rfl
  · dsimp only
    rw [bind_apply]
    cases advanceWhile setting.config.maxLoopIterations condition
      (s'.loops.iterations node.id) <;> rfl

namespace WriteStable

variable {node : Node}

theorem ensures_bindings (h : WriteStable setting R) (f : Variables → Variables) :
    Ensures R (fun _ => True) (modify fun s => { s with bindings := f s.bindings } : Action Unit) :=
  fun s => ⟨h.bindings s _, fun _ _ => trivial⟩

theorem ensures_bump (h : WriteStable setting R) : Ensures R (fun _ => True) Run.bump :=
  fun s => ⟨h.bump s, fun _ _ => trivial⟩

theorem ensures_behaviour_of_ne (h : WriteStable setting R) (hf : node.kind ≠ .forLoop)
    (hw : node.kind ≠ .whileLoop) : Ensures R (InGraph setting) (behaviour setting node) := by
  unfold behaviour
  dsimp only
  split
  · exact h.ensures_pure (inGraph_follow node _)
  · exact h.ensures_pure (inGraph_successors node _)
  · refine h.ensures_bind (h.ensures_read node _) fun v _ => ?_
    refine h.ensures_bind (h.ensures_lift _) fun text _ => ?_
    exact h.ensures_bind (h.ensures_trace rfl) fun _ _ => h.ensures_pure (inGraph_follow node _)
  · refine h.ensures_bind (h.ensures_variableName node) fun name _ => ?_
    split
    · rename_i name
      refine h.ensures_bind (h.ensures_read node _) fun v _ => ?_
      refine h.ensures_bind (h.ensures_bindings fun vs => vs.insert name v) fun _ _ => ?_
      exact h.ensures_bind h.ensures_bump fun _ _ => h.ensures_pure (inGraph_follow node _)
    · exact h.ensures_pure (inGraph_follow node _)
  · refine h.ensures_bind (h.ensures_variableName node) fun name _ => ?_
    split
    · rename_i name
      refine h.ensures_bind (h.ensures_bindings fun vs => vs.erase name) fun _ _ => ?_
      exact h.ensures_bind h.ensures_bump fun _ _ => h.ensures_pure (inGraph_follow node _)
    · exact h.ensures_pure (inGraph_follow node _)
  · refine h.ensures_bind (h.ensures_readCondition node) fun condition _ => ?_
    exact h.ensures_pure (inGraph_follow node _)
  · rename_i hk
    exact absurd hk hf
  · rename_i hk
    exact absurd hk hw
  · exact h.ensures_pure fun m hm => by cases hm

end WriteStable

theorem behaviour_of_forLoop {node : Node} (hk : node.kind = .forLoop) :
    behaviour setting node = visitForLoop setting node := by
  rw [behaviour, hk]

theorem behaviour_of_whileLoop {node : Node} (hk : node.kind = .whileLoop) :
    behaviour setting node = visitWhileLoop setting node := by
  rw [behaviour, hk]

namespace Stable

variable {node : Node}

theorem ensures_loops (h : Stable setting R) (f : Loops → Loops) :
    Ensures R (fun _ => True) (modifyLoops f) := fun s => ⟨h.loops s _, fun _ _ => trivial⟩

theorem ensures_get (h : Stable setting R) : Ensures R (fun _ => True) (get : Action State) :=
  fun s => ⟨h.refl s, fun _ _ => trivial⟩

theorem ensures_afterLoopStep (h : Stable setting R) (hn : node ∈ setting.graph.nodes)
    (outcome : LoopStep) : Ensures R (InGraph setting) (afterLoopStep setting node outcome) := by
  cases outcome with
  | body =>
    refine h.ensures_bind h.ensures_bump fun _ _ => h.ensures_pure ?_
    intro m hm
    rcases List.mem_append.mp hm with hm | hm
    · exact inGraph_follow node _ m hm
    · rw [List.mem_singleton.mp hm]
      exact hn
  | completed =>
    exact h.ensures_bind (h.ensures_loops _) fun _ _ => h.ensures_pure (inGraph_follow node _)
  | aborted =>
    refine h.ensures_bind (h.ensures_loops _) fun _ _ => ?_
    refine h.ensures_bind (h.ensures_lift _) fun shown _ => ?_
    exact h.ensures_bind (h.ensures_trace rfl) fun _ _ => h.ensures_pure (inGraph_follow node _)

theorem ensures_visitForLoop (h : Stable setting R) (hn : node ∈ setting.graph.nodes) :
    Ensures R (InGraph setting) (visitForLoop setting node) := by
  have hsome (state : ForState) : Ensures R (InGraph setting) (proceed setting node state) := by
    refine h.ensures_bind (h.ensures_lift _) fun x _ => ?_
    exact h.ensures_bind (h.ensures_loops _) fun _ _ => h.ensures_afterLoopStep hn x.1
  refine h.ensures_bind h.ensures_get fun s _ => ?_
  dsimp only
  split
  · exact hsome _
  · refine h.ensures_bind (h.ensures_beginLoop node) fun state _ => ?_
    split
    · exact h.ensures_pure (inGraph_follow node _)
    · exact h.ensures_bind (h.ensures_loops _) fun _ _ => hsome _

theorem ensures_visitWhileLoop (h : Stable setting R) (hn : node ∈ setting.graph.nodes) :
    Ensures R (InGraph setting) (visitWhileLoop setting node) := by
  refine h.ensures_bind (h.ensures_loops _) fun _ _ => ?_
  refine h.ensures_bind h.ensures_get fun s _ => ?_
  refine h.ensures_bind (h.ensures_readCondition node) fun condition _ => ?_
  refine h.ensures_bind (h.ensures_lift _) fun x _ => ?_
  exact h.ensures_bind (h.ensures_loops _) fun _ _ => h.ensures_afterLoopStep hn x.1

theorem ensures_behaviour (h : Stable setting R) (hn : node ∈ setting.graph.nodes) :
    Ensures R (InGraph setting) (behaviour setting node) := by
  by_cases hf : node.kind = .forLoop
  · rw [behaviour_of_forLoop hf]
    exact h.ensures_visitForLoop hn
  · by_cases hw : node.kind = .whileLoop
    · rw [behaviour_of_whileLoop hw]
      exact h.ensures_visitWhileLoop hn
    · exact h.ensures_behaviour_of_ne hf hw

theorem visit (h : Stable setting R) (hq : ∀ s queue, R s { s with queue })
    (hn : node ∈ setting.graph.nodes) (s : State) : R s (Run.visit setting node s) := by
  have hb := (h.ensures_behaviour hn s).1
  unfold Run.visit
  rw [ExceptT.run]
  rcases he : behaviour setting node s with ⟨fault | next, t⟩
  · rw [he] at hb
    exact h.trans hb (h.trace t (.error (.failed node fault)) rfl)
  · rw [he] at hb
    exact h.trans hb (hq t _)

end Stable

/-- A run can be continued by one step at its end. -/
theorem drain_succ (setting : Setting) (n : Nat) (s : State) :
    drain setting (n + 1) s = step setting (drain setting n s) := by
  induction n generalizing s with
  | zero => cases hq : s.queue <;> simp only [drain, step, hq]
  | succ n ih =>
    cases hq : s.queue with
    | nil => simp only [drain, step, hq]
    | cons node queue =>
      have hs (k : Nat) : drain setting (k + 1) s = drain setting k (step setting s) := by
        simp only [drain, hq]
      rw [hs, hs, ih]

theorem stable_queue : Stable setting (fun s t => t.queue = s.queue) where
  refl _ := rfl
  trans hst htu := htu.trans hst
  read _ _ _ := rfl
  trace _ _ _ := rfl
  loops _ _ := rfl
  bindings _ _ := rfl
  bump _ := rfl

theorem inGraph_visit {node : Node} (hn : node ∈ setting.graph.nodes) {s : State}
    (h : InGraph setting s.queue) : InGraph setting (visit setting node s).queue := by
  obtain ⟨hq, hx⟩ := stable_queue.ensures_behaviour hn s
  unfold visit
  rw [ExceptT.run]
  rcases he : behaviour setting node s with ⟨fault | next, t⟩
  · rw [he] at hq
    exact hq ▸ h
  · rw [he] at hq hx
    intro m hm
    rcases List.mem_append.mp hm with hm | hm
    · exact h m (hq ▸ hm)
    · exact hx next rfl m hm

theorem inGraph_drain {s : State} (h : InGraph setting s.queue) (n : Nat) :
    InGraph setting (drain setting n s).queue := by
  induction n with
  | zero => exact h
  | succ n ih =>
    rw [drain_succ, step]
    split
    · exact ih
    · rename_i node queue hq
      rw [hq] at ih
      exact inGraph_visit (ih node List.mem_cons_self) fun m hm => ih m (List.mem_cons_of_mem _ hm)

section

variable {node : Node} {s : State} {n : Nat}

def visited? (setting : Setting) (s : State) (n : Nat) : Option Node :=
  (drain setting n s).queue.head?

/-- The state in which the visit number `n` of a run begins. -/
def entering (setting : Setting) (s : State) (n : Nat) : State :=
  { drain setting n s with
    queue := (drain setting n s).queue.tail
    steps := (drain setting n s).steps + 1 }

theorem queue_of_visited? (h : visited? setting s n = some node) :
    (drain setting n s).queue = node :: (entering setting s n).queue :=
  (List.cons_head?_tail h).symm

theorem drain_succ_of_visited? (h : visited? setting s n = some node) :
    drain setting (n + 1) s = visit setting node (entering setting s n) := by
  rw [drain_succ, step, queue_of_visited? h]
  rfl

theorem drain_succ_of_visited?_eq_none (h : visited? setting s n = none) :
    drain setting (n + 1) s = drain setting n s := by
  rw [drain_succ, step, List.head?_eq_none_iff.mp h]

theorem mem_nodes_of_visited? (hs : InGraph setting s.queue)
    (h : visited? setting s n = some node) : node ∈ setting.graph.nodes :=
  inGraph_drain hs n node (List.mem_of_mem_head? h)

theorem Stable.drain (h : Stable setting R) (hq : ∀ s queue, R s { s with queue })
    (hn : ∀ s steps, R s { s with steps }) (hs : InGraph setting s.queue) {m : Nat} (hle : m ≤ n) :
    R (Run.drain setting m s) (Run.drain setting n s) := by
  induction n, hle using Nat.le_induction with
  | base => exact h.refl _
  | succ n hle ih =>
    cases hv : visited? setting s n with
    | none => rwa [drain_succ_of_visited?_eq_none hv]
    | some node =>
      rw [drain_succ_of_visited? hv]
      have hentering : R (Run.drain setting n s) (entering setting s n) :=
        h.trans (hq _ (Run.drain setting n s).queue.tail) (hn _ ((Run.drain setting n s).steps + 1))
      exact h.trans (h.trans ih hentering) (h.visit hq (mem_nodes_of_visited? hs hv) _)

def visits (setting : Setting) (s : State) (n : Nat) : List Node :=
  (List.range n).filterMap (visited? setting s)

theorem visits_succ (setting : Setting) (s : State) (n : Nat) :
    visits setting s (n + 1) = visits setting s n ++ (visited? setting s n).toList := by
  rw [visits, List.range_succ, List.filterMap_append]
  cases h : visited? setting s n <;> simp [visits, h]

theorem stable_steps : Stable setting (fun s t => t.steps = s.steps) where
  refl _ := rfl
  trans hst htu := htu.trans hst
  read _ _ _ := rfl
  trace _ _ _ := rfl
  loops _ _ := rfl
  bindings _ _ := rfl
  bump _ := rfl

theorem steps_visit (hn : node ∈ setting.graph.nodes) (s : State) :
    (visit setting node s).steps = s.steps := stable_steps.visit (fun _ _ => rfl) hn s

theorem steps_drain (hs : InGraph setting s.queue) (n : Nat) :
    (drain setting n s).steps = s.steps + (visits setting s n).length := by
  induction n with
  | zero => rfl
  | succ n ih =>
    rw [visits_succ, List.length_append]
    cases h : visited? setting s n with
    | none =>
      rw [drain_succ_of_visited?_eq_none h, ih]
      rfl
    | some node =>
      rw [drain_succ_of_visited? h, steps_visit (mem_nodes_of_visited? hs h), entering, ih]
      rfl

end

end Run

end NodeScript
