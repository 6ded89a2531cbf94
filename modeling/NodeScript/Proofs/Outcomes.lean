import NodeScript.Proofs.LoopVisits
import NodeScript.Proofs.Warnings

/-!
How a visit ends. A behaviour first reads, and may warn; after that it fails, prints, reports a loop
that has come up to its limit, or does none of these. So what fails has changed no variable yet, and
the warnings of a visit stand before everything else that it writes.
-/

namespace NodeScript

theorem Entry.countP_isError {ws : List Entry} (h : ∀ e ∈ ws, e.isWarning = true) :
    ws.countP isError = 0 := by
  rw [List.countP_eq_zero]
  intro e he
  have hw := h e he
  cases e <;> simp_all [isWarning, isError]

theorem Trace.Extends.errors_eq {t u : Trace} (h : t.Extends (·.isWarning = true) u) :
    u.errors = t.errors := by
  obtain ⟨ws, hu, hws⟩ := h
  rw [errors, hu, List.countP_append, Entry.countP_isError hws]
  rfl

theorem Trace.errors_report (t : Trace) (cause : Cause) :
    (t.report cause).errors = t.errors + 1 := by
  simp [errors, report, append, Entry.isError]

namespace Run

open Evaluation

variable {α β : Type} {setting : Setting} {node : Node} {s t u : State}

/-- Find the state with which the visit of a counting loop goes on; there is none if the bounds of
the loop are no integers. -/
def resumeLoop (setting : Setting) (node : Node) : Action (Option ForState) := fun s =>
  match s.loops.counting.get? node.id with
  | some state => (.ok (some state), s)
  | none =>
    match beginLoop setting node s with
    | (.ok (some state), t) =>
      (.ok (some state), { t with loops := t.loops.startFor node.id state })
    | (r, t) => (r, t)

theorem visitForLoop_eq (setting : Setting) (node : Node) (s : State) :
    visitForLoop setting node s =
      match resumeLoop setting node s with
      | (.ok (some state), t) => proceed setting node state t
      | (.ok none, t) => (.ok (setting.graph.follow node completed), t)
      | (.error fault, t) => (.error fault, t) := by
  rw [visitForLoop_apply, resumeLoop]
  cases s.loops.counting.get? node.id with
  | some state => rfl
  | none =>
    obtain ⟨r, t⟩ := beginLoop setting node s
    cases r with
    | error fault => rfl
    | ok state => cases state <;> rfl

def enterWhile (node : Node) (s : State) : State :=
  { s with loops := s.loops.setWhile node.id (s.loops.iterations node.id) }

/-- What the visit of a loop that begins in `s` comes to. There is no outcome at a node of another
kind, nor where the bounds or the condition of the loop are not known. -/
def loopOutcome? (setting : Setting) (node : Node) (s : State) : Option LoopStep :=
  let limit := setting.config.maxLoopIterations
  match node.kind with
  | .forLoop =>
    match (resumeLoop setting node s).1 with
    | .ok (some state) => (state.advance limit).toOption.map Prod.fst
    | _ => none
  | .whileLoop =>
    match (readCondition setting node (enterWhile node s)).1 with
    | .ok condition =>
      (advanceWhile limit condition (s.loops.iterations node.id)).toOption.map Prod.fst
    | .error _ => none
  | _ => none

theorem loopOutcome?_of_forLoop (setting : Setting) (hk : node.kind = .forLoop) (s : State) :
    loopOutcome? setting node s =
      match (resumeLoop setting node s).1 with
      | .ok (some state) =>
        (state.advance setting.config.maxLoopIterations).toOption.map Prod.fst
      | _ => none := by
  simp only [loopOutcome?, hk]

theorem loopOutcome?_of_whileLoop (setting : Setting) (hk : node.kind = .whileLoop) (s : State) :
    loopOutcome? setting node s =
      match (readCondition setting node (enterWhile node s)).1 with
      | .ok condition =>
        (advanceWhile setting.config.maxLoopIterations condition
          (s.loops.iterations node.id)).toOption.map Prod.fst
      | .error _ => none := by
  simp only [loopOutcome?, hk]

theorem loopOutcome?_of_ne (hf : node.kind ≠ .forLoop) (hw : node.kind ≠ .whileLoop) (s : State) :
    loopOutcome? setting node s = none := by
  unfold loopOutcome?
  split
  · exact absurd ‹_› hf
  · exact absurd ‹_› hw
  · rfl

theorem loopOutcome?_of_print (hk : node.kind = .printString) :
    loopOutcome? setting node s = none :=
  loopOutcome?_of_ne (by simp [hk]) (by simp [hk]) s

theorem visitWhileLoop_eq (setting : Setting) (node : Node) (s : State) :
    visitWhileLoop setting node s =
      match readCondition setting node (enterWhile node s) with
      | (.ok condition, t) =>
        match advanceWhile setting.config.maxLoopIterations condition
          (s.loops.iterations node.id) with
        | .ok (outcome, iterations) =>
          afterLoopStep setting node outcome
            { t with loops := t.loops.setWhile node.id iterations }
        | .error fault => (.error fault, t)
      | (.error fault, t) => (.error fault, t) := by
  rw [visitWhileLoop_apply, Loops.iterations_setWhile_self]
  rfl

/-- From `s` to `t` neither a variable nor the generation has changed, and nothing but warnings has
been written. -/
structure OnlyWarns (s t : State) : Prop where
  bindings : t.bindings = s.bindings
  generation : t.evaluation.generation = s.evaluation.generation
  warned : s.trace.Extends (·.isWarning = true) t.trace

theorem OnlyWarns.refl (s : State) : OnlyWarns s s := ⟨rfl, rfl, .refl _ _⟩

theorem OnlyWarns.trans (hst : OnlyWarns s t) (htu : OnlyWarns t u) : OnlyWarns s u :=
  ⟨htu.bindings.trans hst.bindings, htu.generation.trans hst.generation,
    Trace.Extends.trans hst.warned htu.warned⟩

theorem OnlyWarns.changeLoops (h : OnlyWarns s t) (loops : Loops) :
    OnlyWarns s { t with loops } := ⟨h.bindings, h.generation, h.warned⟩

theorem warnStable_onlyWarns (setting : Setting) : WarnStable setting OnlyWarns where
  refl := .refl
  trans := .trans
  read s node label := ⟨rfl, (contemporary_inputValue (s.scene setting) s.evaluation node label).1,
    warned_inputValue (s.scene setting) s.evaluation node label⟩
  warn s _ _ := ⟨rfl, rfl, s.trace.extends_append rfl⟩

theorem onlyWarns_resumeLoop (setting : Setting) (node : Node) (s : State) :
    OnlyWarns s (resumeLoop setting node s).2 := by
  have hb := ((warnStable_onlyWarns setting).ensures_beginLoop node s).1
  rw [resumeLoop]
  cases s.loops.counting.get? node.id with
  | some state => exact .refl s
  | none =>
    generalize beginLoop setting node s = x at hb ⊢
    obtain ⟨r, t⟩ := x
    cases r with
    | error fault => exact hb
    | ok state =>
      cases state with
      | none => exact hb
      | some state => exact hb.changeLoops _

/-- The action writes nothing but warnings, and if it fails it has done nothing else. -/
structure Mild (a : Action α) : Prop where
  warned : ∀ s : State, s.trace.Extends (·.isWarning = true) (a s).2.trace
  onlyWarns : ∀ s fault, (a s).1 = .error fault → OnlyWarns s (a s).2

theorem mild_pure (x : α) : Mild (pure x : Action α) :=
  ⟨fun s => .refl _ s.trace, fun s _ _ => .refl s⟩

theorem mild_of_ok {a : Action α} (ha : ∀ s, ∃ x, (a s).1 = .ok x)
    (ht : ∀ s, (a s).2.trace = s.trace) : Mild a := by
  constructor
  · intro s
    rw [ht]
    exact .refl _ _
  · intro s fault h
    obtain ⟨x, hx⟩ := ha s
    rw [hx] at h
    cases h

theorem Mild.bind {P : α → Prop} {a : Action α} {f : α → Action β} (ha : Ensures OnlyWarns P a)
    (hf : ∀ x, Mild (f x)) : Mild (a >>= f) := by
  constructor
  · intro s
    have hs := (ha s).1
    rw [bind_apply]
    generalize a s = x at hs ⊢
    obtain ⟨r, t⟩ := x
    cases r with
    | error fault => exact hs.warned
    | ok x => exact Trace.Extends.trans hs.warned ((hf x).warned t)
  · intro s fault
    have hs := (ha s).1
    rw [bind_apply]
    generalize a s = x at hs ⊢
    obtain ⟨r, t⟩ := x
    cases r with
    | error fault => exact fun _ => hs
    | ok x => exact fun h => hs.trans ((hf x).onlyWarns t fault h)

/-- Where nothing is printed and no loop is visited, warnings are all that is written. -/
theorem mild_behaviour (hp : node.kind ≠ .printString) (hf : node.kind ≠ .forLoop)
    (hw : node.kind ≠ .whileLoop) : Mild (behaviour setting node) := by
  have hstable := warnStable_onlyWarns setting
  unfold behaviour
  dsimp only
  split
  · exact mild_pure _
  · exact mild_pure _
  · exact absurd ‹_› hp
  · apply Mild.bind (hstable.ensures_variableName node)
    intro name
    split
    · apply Mild.bind (hstable.ensures_read node _)
      intro v
      exact mild_of_ok (fun _ => ⟨_, rfl⟩) (fun _ => rfl)
    · exact mild_pure _
  · apply Mild.bind (hstable.ensures_variableName node)
    intro name
    split
    · exact mild_of_ok (fun _ => ⟨_, rfl⟩) (fun _ => rfl)
    · exact mild_pure _
  · apply Mild.bind (hstable.ensures_readCondition node)
    intro condition
    exact mild_pure _
  · exact absurd ‹_› hf
  · exact absurd ‹_› hw
  · exact mild_pure _

/-- What the behaviour of `node` in the state `s` leads to. -/
inductive Effect (setting : Setting) (node : Node) (s : State) :
    Except Fault (List Node) × State → Prop
  | failed {fault : Fault} {t : State} (h : OnlyWarns s t)
    (ho : ∀ shown, setting.config.maxLoopIterations.plain = .ok shown →
      loopOutcome? setting node s ≠ some .aborted) : Effect setting node s (.error fault, t)
  | passed {next : List Node} {t : State} (hk : node.kind ≠ .printString)
    (h : s.trace.Extends (·.isWarning = true) t.trace)
    (ho : loopOutcome? setting node s ≠ some .aborted) : Effect setting node s (.ok next, t)
  | printed {next : List Node} {v : Value} {text : Text} {t u : State}
    (hk : node.kind = .printString) (hr : read setting node "In String" s = (.ok v, u))
    (hv : v.display = .ok text) (h : t.trace = u.trace.print text) :
    Effect setting node s (.ok next, t)
  | aborted {next : List Node} {shown : Text} {t u : State}
    (ho : loopOutcome? setting node s = some .aborted)
    (hs : setting.config.maxLoopIterations.plain = .ok shown)
    (hu : s.trace.Extends (·.isWarning = true) u.trace)
    (h : t.trace = u.trace.report (.loopLimit node setting.config.maxLoopIterations shown)) :
    Effect setting node s (.ok next, t)

theorem effect_of_mild (hk : node.kind ≠ .printString)
    (ho : loopOutcome? setting node s ≠ some .aborted) (h : Mild (behaviour setting node)) :
    Effect setting node s (behaviour setting node s) := by
  have hw := h.warned s
  have hq := h.onlyWarns s
  generalize behaviour setting node s = x at hw hq ⊢
  obtain ⟨r, t⟩ := x
  cases r with
  | error fault => exact .failed (hq fault rfl) fun _ _ => ho
  | ok next => exact .passed hk hw ho

theorem effect_print (hk : node.kind = .printString) (s : State) :
    Effect setting node s (behaviour setting node s) := by
  have ho : loopOutcome? setting node s ≠ some .aborted := by
    simp [loopOutcome?_of_print hk]
  have hs := (warnStable_onlyWarns setting).read s node "In String"
  rw [behaviour, hk]
  dsimp only
  rw [bind_apply]
  cases hr : read setting node "In String" s with
  | mk r u =>
    rw [hr] at hs
    cases r with
    | error fault => exact .failed hs fun _ _ => ho
    | ok v =>
      dsimp only
      rw [bind_apply]
      cases hv : v.display with
      | error fault => exact .failed hs fun _ _ => ho
      | ok text => exact .printed hk hr hv rfl

/-- A loop that has come to an outcome fails only where its limit cannot be shown. -/
theorem effect_afterLoopStep {outcome : LoopStep} (hk : node.kind ≠ .printString)
    (ho : loopOutcome? setting node s = some outcome) (h : OnlyWarns s u) :
    Effect setting node s (afterLoopStep setting node outcome u) := by
  cases outcome with
  | body => exact .passed hk h.warned (by simp [ho])
  | completed => exact .passed hk h.warned (by simp [ho])
  | aborted =>
    unfold afterLoopStep
    dsimp only
    cases hl : setting.config.maxLoopIterations.plain with
    | error fault => exact .failed (h.changeLoops _) fun shown hs => by simp [hl] at hs
    | ok shown => exact .aborted ho hl h.warned rfl

theorem effect_visitForLoop (hk : node.kind = .forLoop) (s : State) :
    Effect setting node s (visitForLoop setting node s) := by
  have hp : node.kind ≠ .printString := by simp [hk]
  have ho := loopOutcome?_of_forLoop setting hk s
  have hs := onlyWarns_resumeLoop setting node s
  rw [visitForLoop_eq]
  generalize resumeLoop setting node s = x at ho hs ⊢
  obtain ⟨r, t⟩ := x
  cases r with
  | error fault => exact .failed hs fun _ _ => by simp [ho]
  | ok state =>
    cases state with
    | none => exact .passed hp hs.warned (by simp [ho])
    | some state =>
      dsimp only at ho ⊢
      cases ha : state.advance setting.config.maxLoopIterations with
      | error fault =>
        have hproceed : proceed setting node state t = (.error fault, t) := by
          unfold proceed
          rw [ha]
          rfl
        rw [hproceed]
        exact .failed hs fun _ _ => by simp [ho, ha, Except.toOption]
      | ok x =>
        rw [proceed_eq ha]
        apply effect_afterLoopStep hp
        · simp [ho, ha, Except.toOption]
        · exact hs.changeLoops _

theorem effect_visitWhileLoop (hk : node.kind = .whileLoop) (s : State) :
    Effect setting node s (visitWhileLoop setting node s) := by
  have hp : node.kind ≠ .printString := by simp [hk]
  have ho := loopOutcome?_of_whileLoop setting hk s
  have hs := ((warnStable_onlyWarns setting).ensures_readCondition node (enterWhile node s)).1
  replace hs : OnlyWarns s _ := ((OnlyWarns.refl s).changeLoops _).trans hs
  rw [visitWhileLoop_eq]
  generalize readCondition setting node (enterWhile node s) = x at ho hs ⊢
  obtain ⟨r, t⟩ := x
  cases r with
  | error fault => exact .failed hs fun _ _ => by simp [ho]
  | ok condition =>
    dsimp only at ho ⊢
    cases ha : advanceWhile setting.config.maxLoopIterations condition
      (s.loops.iterations node.id) with
    | error fault => exact .failed hs fun _ _ => by simp [ho, ha, Except.toOption]
    | ok x =>
      apply effect_afterLoopStep hp
      · simp [ho, ha, Except.toOption]
      · exact hs.changeLoops _

theorem effect_behaviour (setting : Setting) (node : Node) (s : State) :
    Effect setting node s (behaviour setting node s) := by
  by_cases hf : node.kind = .forLoop
  · rw [behaviour_of_forLoop hf]
    exact effect_visitForLoop hf s
  by_cases hw : node.kind = .whileLoop
  · rw [behaviour_of_whileLoop hw]
    exact effect_visitWhileLoop hw s
  by_cases hp : node.kind = .printString
  · exact effect_print hp s
  · apply effect_of_mild hp
    · simp [loopOutcome?_of_ne hf hw]
    · exact mild_behaviour hp hf hw

def failsAt (setting : Setting) (s : State) (n : Nat) : Bool :=
  (visited? setting s n).any fun node => !(behaviour setting node (entering setting s n)).1.isOk

theorem failsAt_of_visited? {n : Nat} (hv : visited? setting s n = some node) :
    failsAt setting s n = true ↔
      ∃ fault, (behaviour setting node (entering setting s n)).1 = .error fault := by
  rw [failsAt, hv, Option.any_some]
  cases (behaviour setting node (entering setting s n)).1 <;> simp [Except.isOk, Except.toBool]

def abortsAt (setting : Setting) (s : State) (n : Nat) : Bool :=
  (visited? setting s n).any fun node =>
    loopOutcome? setting node (entering setting s n) == some .aborted

end Run

end NodeScript
