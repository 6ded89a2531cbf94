import Mathlib.Data.List.Forall2
import NodeScript.Proofs.Visits

/-!
Two runs that keep in step. The runs may differ in their graphs and in how they find values, as long
as what a single read, write or look at a loop does corresponds; then every visit does, and so does
every number of steps.
-/

namespace NodeScript

inductive Entry.Alike (node : Node → Node → Prop) : Entry → Entry → Prop
  | print (text : Text) : Alike node (.print text) (.print text)
  | warning {n n' : Node} (h : node n n') (message : Text) :
    Alike node (.warning n message) (.warning n' message)
  | failed {n n' : Node} (h : node n n') (fault : Fault) :
    Alike node (.error (.failed n fault)) (.error (.failed n' fault))
  | loopLimit {n n' : Node} (h : node n n') (limit : Value) (shown : Text) :
    Alike node (.error (.loopLimit n limit shown)) (.error (.loopLimit n' limit shown))

namespace Run

variable {α α' β β' : Type} {setting setting' : Setting}

def Setting.scene (setting : Setting) (bindings : Variables) (loops : Loops) : Evaluation.Scene :=
  { graph := setting.graph, bindings, loops, memo := setting.memo }

/-- Which nodes and which states of two runs correspond, such that the elementary changes of a visit
lead from corresponding states to corresponding ones. Both runs have the same variables. -/
structure Simulation (setting setting' : Setting) where
  node : Node → Node → Prop
  core : Variables → Loops → Loops → Evaluation.State → Evaluation.State → Prop
  limit : setting'.config.maxLoopIterations = setting.config.maxLoopIterations
  kind {n n' : Node} : node n n' → n'.kind = n.kind
  properties {n n' : Node} : node n n' → n'.properties = n.properties
  sequence {n n' : Node} : node n n' →
    List.Forall₂ node (setting.graph.successors n n.execOutputs)
      (setting'.graph.successors n' n'.execOutputs)
  follow {n n' : Node} (label : Text) : node n n' →
    List.Forall₂ node (setting.graph.follow n label) (setting'.graph.follow n' label)
  counting {n n' : Node} {vs ls ls' e e'} : node n n' → core vs ls ls' e e' →
    ls'.counting.get? n'.id = ls.counting.get? n.id
  iterations {n n' : Node} {vs ls ls' e e'} : node n n' → core vs ls ls' e e' →
    ls'.iterations n'.id = ls.iterations n.id
  read {n n' : Node} {vs ls ls' e e'} (label : Text) : node n n' → core vs ls ls' e e' →
    (Evaluation.inputValue (setting'.scene vs ls') e' n' label).1 =
        (Evaluation.inputValue (setting.scene vs ls) e n label).1 ∧
      core vs ls ls' (Evaluation.inputValue (setting.scene vs ls) e n label).2
        (Evaluation.inputValue (setting'.scene vs ls') e' n' label).2
  append {vs ls ls' e e' x x'} : Entry.Alike node x x' → core vs ls ls' e e' →
    core vs ls ls' { e with trace := e.trace.append x } { e' with trace := e'.trace.append x' }
  bump {vs ls ls' e e'} (ws : Variables) : core vs ls ls' e e' → core ws ls ls' e.bump e'.bump
  startFor {n n' : Node} {vs ls ls' e e'} (state : ForState) : node n n' → core vs ls ls' e e' →
    core vs (ls.startFor n.id state) (ls'.startFor n'.id state) e e'
  setWhile {n n' : Node} {vs ls ls' e e'} (k : Nat) : node n n' → core vs ls ls' e e' →
    core vs (ls.setWhile n.id k) (ls'.setWhile n'.id k) e e'
  finish {n n' : Node} {vs ls ls' e e'} : node n n' → core vs ls ls' e e' →
    core vs (ls.finish n.id) (ls'.finish n'.id) e e'

/-- Both fail with the same fault, or both return and what they return is related. -/
inductive Answers (r : α → α' → Prop) : Except Fault α → Except Fault α' → Prop
  | ok {x : α} {x' : α'} (h : r x x') : Answers r (.ok x) (.ok x')
  | error (fault : Fault) : Answers r (.error fault) (.error fault)

theorem answers_refl (e : Except Fault α) : Answers Eq e e := by
  cases e with
  | ok x => exact .ok rfl
  | error fault => exact .error fault

namespace Simulation

variable {sim : Simulation setting setting'} {n n' : Node} {s s' : State}

structure Related (sim : Simulation setting setting') (s s' : State) : Prop where
  bindings : s'.bindings = s.bindings
  queue : List.Forall₂ sim.node s.queue s'.queue
  steps : s'.steps = s.steps
  core : sim.core s.bindings s.loops s'.loops s.evaluation s'.evaluation

/-- From related states, the actions give related answers and lead to related states. -/
def Agree (sim : Simulation setting setting') (r : α → α' → Prop) (a : Action α) (a' : Action α') :
    Prop :=
  ∀ s s', sim.Related s s' → Answers r (a s).1 (a' s').1 ∧ sim.Related (a s).2 (a' s').2

theorem Agree.outcomes {r : α → α' → Prop} {a : Action α} {a' : Action α'} (ha : sim.Agree r a a')
    (hs : sim.Related s s') :
    (∃ x x' t t', a s = (.ok x, t) ∧ a' s' = (.ok x', t') ∧ r x x' ∧ sim.Related t t') ∨
      ∃ fault t t', a s = (.error fault, t) ∧ a' s' = (.error fault, t') ∧ sim.Related t t' := by
  obtain ⟨hr, ht⟩ := ha s s' hs
  generalize a s = p at hr ht ⊢
  generalize a' s' = p' at hr ht ⊢
  obtain ⟨x, t⟩ := p
  obtain ⟨x', t'⟩ := p'
  cases hr with
  | ok h => exact .inl ⟨_, _, t, t', rfl, rfl, h, ht⟩
  | error fault => exact .inr ⟨fault, t, t', rfl, rfl, ht⟩

theorem agree_pure {r : α → α' → Prop} {x : α} {x' : α'} (h : r x x') :
    sim.Agree r (pure x : Action α) (pure x') := fun _ _ hs => ⟨.ok h, hs⟩

theorem agree_lift (e : Except Fault α) : sim.Agree Eq (liftM e : Action α) (liftM e) :=
  fun _ _ hs => ⟨answers_refl e, hs⟩

theorem Agree.bind {r : α → α' → Prop} {q : β → β' → Prop} {a : Action α} {a' : Action α'}
    {f : α → Action β} {f' : α' → Action β'} (ha : sim.Agree r a a')
    (hf : ∀ x x', r x x' → sim.Agree q (f x) (f' x')) : sim.Agree q (a >>= f) (a' >>= f') := by
  intro s s' hs
  rw [bind_apply, bind_apply]
  obtain ⟨x, x', t, t', he, he', h, ht⟩ | ⟨fault, t, t', he, he', ht⟩ := ha.outcomes hs
  · rw [he, he']
    exact hf x x' h t t' ht
  · rw [he, he']
    exact ⟨.error fault, ht⟩

theorem Agree.bind_eq {q : β → β' → Prop} {a a' : Action α} {f : α → Action β} {f' : α → Action β'}
    (ha : sim.Agree Eq a a') (hf : ∀ x, sim.Agree q (f x) (f' x)) :
    sim.Agree q (a >>= f) (a' >>= f') :=
  ha.bind fun x _ hx => hx ▸ hf x

theorem agree_read (h : sim.node n n') (label : Text) :
    sim.Agree Eq (Run.read setting n label) (Run.read setting' n' label) := by
  intro s s' hs
  obtain ⟨hv, hcore⟩ := sim.read label h hs.core
  have hscene : s'.scene setting' = setting'.scene s.bindings s'.loops := by
    rw [State.scene, hs.bindings]
    rfl
  unfold Run.read
  rw [hscene]
  exact ⟨hv ▸ answers_refl _, hs.bindings, hs.queue, hs.steps, hcore⟩

theorem agree_append {x x' : Entry} (h : Entry.Alike sim.node x x') :
    sim.Agree Eq (modifyTrace (·.append x)) (modifyTrace (·.append x')) :=
  fun _ _ hs => ⟨.ok rfl, hs.bindings, hs.queue, hs.steps, sim.append h hs.core⟩

theorem agree_bump : sim.Agree Eq Run.bump Run.bump := by
  intro s s' hs
  exact ⟨.ok rfl, hs.bindings, hs.queue, hs.steps, sim.bump s.bindings hs.core⟩

theorem agree_loops {f f' : Loops → Loops}
    (h : ∀ {vs ls ls' e e'}, sim.core vs ls ls' e e' → sim.core vs (f ls) (f' ls') e e') :
    sim.Agree Eq (modifyLoops f) (modifyLoops f') :=
  fun _ _ hs => ⟨.ok rfl, hs.bindings, hs.queue, hs.steps, h hs.core⟩

/-- Variables are changed where a new generation begins. -/
theorem agree_write (f : Variables → Variables) {r : α → α' → Prop} {a : Action α} {a' : Action α'}
    (ha : sim.Agree r a a') :
    sim.Agree r
      (do modify fun s => { s with bindings := f s.bindings }; Run.bump; a)
      (do modify fun s => { s with bindings := f s.bindings }; Run.bump; a') := by
  intro s s' hs
  refine ha { s with bindings := f s.bindings, evaluation := s.evaluation.bump }
    { s' with bindings := f s'.bindings, evaluation := s'.evaluation.bump } ?_
  exact ⟨congrArg f hs.bindings, hs.queue, hs.steps, sim.bump (f s.bindings) hs.core⟩

theorem agree_readCondition (h : sim.node n n') :
    sim.Agree Eq (readCondition setting n) (readCondition setting' n') :=
  (agree_read h _).bind_eq fun _ => agree_pure rfl

theorem agree_variableName (h : sim.node n n') :
    sim.Agree Eq (variableName n) (variableName n') := by
  have hmissing : sim.Agree Eq
      (do modifyTrace (·.append (.warning n "has no variable name. Skipping.")); pure none)
      (do modifyTrace (·.append (.warning n' "has no variable name. Skipping.")); pure none) :=
    (agree_append (.warning h _)).bind_eq fun _ => agree_pure (rfl : (none : Option Text) = none)
  unfold variableName
  dsimp only
  rw [sim.properties h]
  split
  · exact hmissing
  · refine (agree_lift _).bind_eq fun name => ?_
    by_cases hb : Text.isBlankText name
    · rw [if_pos hb, if_pos hb]
      exact hmissing
    · rw [if_neg hb, if_neg hb]
      exact agree_pure rfl

theorem agree_beginLoop (h : sim.node n n') :
    sim.Agree Eq (beginLoop setting n) (beginLoop setting' n') := by
  refine (agree_read h _).bind_eq fun rawStart => ?_
  refine (agree_read h _).bind_eq fun rawLast => ?_
  split
  · refine (agree_read h _).bind_eq fun rawStep => ?_
    split
    · exact agree_pure rfl
    · refine (agree_lift _).bind_eq fun shown => ?_
      exact (agree_append (.warning h _)).bind_eq fun _ => agree_pure rfl
  · refine (agree_lift _).bind_eq fun start => ?_
    refine (agree_lift _).bind_eq fun last => ?_
    exact (agree_append (.warning h _)).bind_eq fun _ => agree_pure rfl

theorem agree_afterLoopStep (h : sim.node n n') (outcome : LoopStep) :
    sim.Agree (List.Forall₂ sim.node) (afterLoopStep setting n outcome)
      (afterLoopStep setting' n' outcome) := by
  cases outcome with
  | body =>
    refine agree_bump.bind_eq fun _ => agree_pure ?_
    exact List.rel_append (sim.follow loopBody h) (.cons h .nil)
  | completed =>
    refine (agree_loops (sim.finish h)).bind_eq fun _ => ?_
    exact agree_pure (sim.follow completed h)
  | aborted =>
    unfold afterLoopStep
    rw [sim.limit]
    refine (agree_loops (sim.finish h)).bind_eq fun _ => ?_
    refine (agree_lift _).bind_eq fun shown => ?_
    refine (agree_append (.loopLimit h _ shown)).bind_eq fun _ => ?_
    exact agree_pure (sim.follow completed h)

theorem agree_proceed (h : sim.node n n') (state : ForState) :
    sim.Agree (List.Forall₂ sim.node) (proceed setting n state) (proceed setting' n' state) := by
  unfold proceed
  rw [sim.limit]
  refine (agree_lift _).bind_eq fun x => ?_
  refine (agree_loops (sim.startFor x.2 h)).bind_eq fun _ => ?_
  exact agree_afterLoopStep h x.1

theorem agree_visitForLoop (h : sim.node n n') :
    sim.Agree (List.Forall₂ sim.node) (visitForLoop setting n) (visitForLoop setting' n') := by
  intro s s' hs
  rw [visitForLoop_apply, visitForLoop_apply, sim.counting h hs.core]
  cases s.loops.counting.get? n.id with
  | some state => exact agree_proceed h state s s' hs
  | none =>
    obtain ⟨state, _, t, t', he, he', rfl, ht⟩ | ⟨fault, t, t', he, he', ht⟩ :=
      (agree_beginLoop h).outcomes hs
    · rw [he, he']
      cases state with
      | none => exact ⟨.ok (sim.follow completed h), ht⟩
      | some state =>
        refine agree_proceed h state _ _ ?_
        exact ⟨ht.bindings, ht.queue, ht.steps, sim.startFor state h ht.core⟩
    · rw [he, he']
      exact ⟨.error fault, ht⟩

theorem agree_visitWhileLoop (h : sim.node n n') :
    sim.Agree (List.Forall₂ sim.node) (visitWhileLoop setting n) (visitWhileLoop setting' n') := by
  intro s s' hs
  rw [visitWhileLoop_apply, visitWhileLoop_apply, Loops.iterations_setWhile_self,
    Loops.iterations_setWhile_self, sim.iterations h hs.core, sim.limit]
  generalize s.loops.iterations n.id = k
  have hset : sim.Related { s with loops := s.loops.setWhile n.id k }
      { s' with loops := s'.loops.setWhile n'.id k } :=
    ⟨hs.bindings, hs.queue, hs.steps, sim.setWhile k h hs.core⟩
  obtain ⟨condition, _, t, t', he, he', rfl, ht⟩ | ⟨fault, t, t', he, he', ht⟩ :=
    (agree_readCondition h).outcomes hset
  · rw [he, he']
    dsimp only
    cases advanceWhile setting.config.maxLoopIterations condition k with
    | error fault => exact ⟨.error fault, ht⟩
    | ok x =>
      refine agree_afterLoopStep h x.1 _ _ ?_
      exact ⟨ht.bindings, ht.queue, ht.steps, sim.setWhile x.2 h ht.core⟩
  · rw [he, he']
    exact ⟨.error fault, ht⟩

theorem agree_behaviour (h : sim.node n n') :
    sim.Agree (List.Forall₂ sim.node) (behaviour setting n) (behaviour setting' n') := by
  unfold behaviour
  dsimp only
  rw [sim.kind h]
  split
  · exact agree_pure (sim.follow _ h)
  · exact agree_pure (sim.sequence h)
  · refine (agree_read h _).bind_eq fun v => ?_
    refine (agree_lift _).bind_eq fun text => ?_
    exact (agree_append (.print text)).bind_eq fun _ => agree_pure (sim.follow _ h)
  · refine (agree_variableName h).bind_eq fun name => ?_
    cases name with
    | none => exact agree_pure (sim.follow _ h)
    | some name =>
      refine (agree_read h _).bind_eq fun v => ?_
      exact agree_write (fun vs => vs.insert name v) (agree_pure (sim.follow _ h))
  · refine (agree_variableName h).bind_eq fun name => ?_
    cases name with
    | none => exact agree_pure (sim.follow _ h)
    | some name => exact agree_write (fun vs => vs.erase name) (agree_pure (sim.follow _ h))
  · exact (agree_readCondition h).bind_eq fun condition => agree_pure (sim.follow _ h)
  · exact agree_visitForLoop h
  · exact agree_visitWhileLoop h
  · exact agree_pure .nil

theorem Related.visit (hs : sim.Related s s') (h : sim.node n n') :
    sim.Related (visit setting n s) (visit setting' n' s') := by
  unfold Run.visit
  rw [ExceptT.run, ExceptT.run]
  obtain ⟨next, next', t, t', he, he', hnext, ht⟩ | ⟨fault, t, t', he, he', ht⟩ :=
    (agree_behaviour h).outcomes hs
  · rw [he, he']
    exact ⟨ht.bindings, List.rel_append ht.queue hnext, ht.steps, ht.core⟩
  · rw [he, he']
    exact ⟨ht.bindings, ht.queue, ht.steps, sim.append (.failed h fault) ht.core⟩

theorem Related.step (hs : sim.Related s s') : sim.Related (step setting s) (step setting' s') := by
  have hqueue := hs.queue
  unfold Run.step
  generalize s.queue = q at hqueue ⊢
  generalize s'.queue = q' at hqueue ⊢
  cases hqueue with
  | nil => exact hs
  | cons h hqueue =>
    refine Related.visit ⟨hs.bindings, hqueue, ?_, hs.core⟩ h
    exact congrArg (· + 1) hs.steps

theorem Related.drain (hs : sim.Related s s') (k : Nat) :
    sim.Related (drain setting k s) (drain setting' k s') := by
  induction k with
  | zero => exact hs
  | succ k ih =>
    rw [drain_succ, drain_succ]
    exact ih.step

end Simulation

end Run

end NodeScript
