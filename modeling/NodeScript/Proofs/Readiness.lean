import NodeScript.Proofs.Wiring

/-!
What is known of an output before an operation is run. Exec pins, variables and loops show their
value at once; every other output has an operation, which is due unless there is a result of the
current generation or the node is in progress already.
-/

namespace NodeScript

/-- The kinds that produce values have an operation, except for the two that show the state of the
run. -/
theorem NodeKind.isSome_operation?_iff (k : NodeKind) :
    k.operation?.isSome = true ↔ k.isData = true ∧ k ≠ .getVariable ∧ k ≠ .forLoop := by
  cases k <;> decide

/-- An operation that is not random does not touch the generator. -/
theorem NodeKind.eq_plain_of_operation? {k : NodeKind} {operation : Operation}
    (h : k.operation? = some operation) (hi : k ≠ .randomInteger) (hf : k ≠ .randomFloat) :
    ∃ f, operation = .plain f := by
  cases k <;> first
    | exact absurd rfl hi
    | exact absurd rfl hf
    | (cases h; done)
    | (cases h; exact ⟨_, rfl⟩)

namespace Evaluation

variable {scene : Scene} {s t : State} {node : Node} {pin : Pin}

def variableValue (scene : Scene) (node : Node) : Except Fault Value :=
  match (node.properties.get? "name").getD .null with
  | .null => .ok .null
  | name => name.plain.map fun name => (scene.bindings.get? name).getD .null

/-- What an output shows without an operation: no value at an exec pin or where a node produces
none, and the state of the run at a variable or a loop. -/
def immediate? (scene : Scene) (node : Node) (pin : Pin) : Option (Except Fault Value) :=
  if pin.isExec || !node.kind.isData then some (.ok .null)
  else
    match node.kind with
    | .getVariable => some (variableValue scene node)
    | .forLoop => some (.ok (.int (scene.loops.currentIndex node.id)))
    | _ => none

def Readiness.ofExcept : Except Fault Value → Readiness
  | .ok v => .known v
  | .error fault => .failed fault

theorem readVariable_eq (scene : Scene) (node : Node) :
    readVariable scene node = .ofExcept (variableValue scene node) := by
  unfold readVariable variableValue
  generalize (node.properties.get? "name").getD .null = name
  cases name with
  | null => rfl
  | _ =>
    dsimp only
    generalize Value.plain _ = r
    cases r <;> rfl

theorem immediate?_eq_none_iff :
    immediate? scene node pin = none ↔
      pin.isExec = false ∧ node.kind.operation?.isSome = true := by
  rw [NodeKind.isSome_operation?_iff, immediate?]
  split
  · rename_i h
    rw [Bool.or_eq_true, Bool.not_eq_true'] at h
    constructor
    · intro hn
      cases hn
    · rintro ⟨he, hd, -⟩
      rw [he, hd] at h
      simp at h
  · rename_i h
    simp only [Bool.or_eq_true, Bool.not_eq_true', not_or, Bool.not_eq_false, Bool.not_eq_true] at h
    split <;> simp_all

/-- A result of the current generation, if results are used again. -/
def remembered? (scene : Scene) (s : State) (node : Node) (pin : Pin) : Option Value :=
  if scene.memo then s.cached? (node.id, pin.id) else none

theorem cached?_of_remembered? {v : Value} (h : remembered? scene s node pin = some v) :
    s.cached? (node.id, pin.id) = some v := by
  unfold remembered? at h
  split at h
  · exact h
  · cases h

theorem ready_eq (scene : Scene) (s : State) (node : Node) (pin : Pin) :
    ready scene s node pin =
      match immediate? scene node pin with
      | some r => (.ofExcept r, s)
      | none =>
        match remembered? scene s node pin with
        | some v => (.known v, { s with cacheHits := s.cacheHits + 1 })
        | none =>
          if s.inProgress.contains node.id then (.known .null, s.warn node cycleWarning)
          else (.due, s) := by
  unfold ready immediate?
  by_cases hp : (pin.isExec || !node.kind.isData) = true
  · rw [if_pos hp, if_pos hp]
    rfl
  · rw [if_neg hp, if_neg hp]
    cases hk : node.kind with
    | getVariable => exact congrArg (·, s) (readVariable_eq scene node)
    | _ => rfl

theorem ready_of_immediate {r : Except Fault Value} (h : immediate? scene node pin = some r) :
    ready scene s node pin = (.ofExcept r, s) := by
  rw [ready_eq, h]

theorem ready_of_operation (h : immediate? scene node pin = none) :
    ready scene s node pin =
      match remembered? scene s node pin with
      | some v => (.known v, { s with cacheHits := s.cacheHits + 1 })
      | none =>
        if s.inProgress.contains node.id then (.known .null, s.warn node cycleWarning)
        else (.due, s) := by
  rw [ready_eq, h]

/-- What a look at an output comes to. -/
inductive Looked (scene : Scene) (s : State) (node : Node) (pin : Pin) : Readiness × State → Prop
  | shows {v : Value} (hi : immediate? scene node pin = some (.ok v)) :
    Looked scene s node pin (.known v, s)
  | fails {fault : Fault} (hi : immediate? scene node pin = some (.error fault)) :
    Looked scene s node pin (.failed fault, s)
  | remembers {v : Value} (hi : immediate? scene node pin = none)
    (hv : remembered? scene s node pin = some v) :
    Looked scene s node pin (.known v, { s with cacheHits := s.cacheHits + 1 })
  | circular (hi : immediate? scene node pin = none) (hv : remembered? scene s node pin = none)
    (hp : node.id ∈ s.inProgress) :
    Looked scene s node pin (.known .null, s.warn node cycleWarning)
  | due (hi : immediate? scene node pin = none) (hv : remembered? scene s node pin = none)
    (hp : node.id ∉ s.inProgress) : Looked scene s node pin (.due, s)

theorem looked_ready (scene : Scene) (s : State) (node : Node) (pin : Pin) :
    Looked scene s node pin (ready scene s node pin) := by
  cases hi : immediate? scene node pin with
  | some r =>
    rw [ready_of_immediate hi]
    cases r with
    | ok v => exact .shows hi
    | error fault => exact .fails hi
  | none =>
    rw [ready_of_operation hi]
    cases hv : remembered? scene s node pin with
    | some v => exact .remembers hi hv
    | none =>
      dsimp only
      split
      · rename_i hp
        exact .circular hi hv (by simpa using hp)
      · rename_i hp
        exact .due hi hv (by simpa using hp)

theorem Looked.of_eq {r : Readiness × State} (h : ready scene s node pin = r) :
    Looked scene s node pin r := h ▸ looked_ready scene s node pin

theorem ready_due (h : ready scene s node pin = (.due, t)) :
    t = s ∧ immediate? scene node pin = none ∧ node.id ∉ s.inProgress := by
  cases Looked.of_eq h with
  | due hi hv hp => exact ⟨rfl, hi, hp⟩

theorem ready_failed {fault : Fault} (h : ready scene s node pin = (.failed fault, t)) :
    t = s ∧ immediate? scene node pin = some (.error fault) := by
  cases Looked.of_eq h with
  | fails hi => exact ⟨rfl, hi⟩

/-- Results and nodes in progress are as they were. -/
structure Glances (s t : State) : Prop where
  inProgress : t.inProgress = s.inProgress
  cache : t.cache = s.cache
  generation : t.generation = s.generation

theorem Glances.refl (s : State) : Glances s s := ⟨rfl, rfl, rfl⟩

theorem glances_ready (scene : Scene) (s : State) (node : Node) (pin : Pin) :
    Glances s (ready scene s node pin).2 := by
  have h := looked_ready scene s node pin
  generalize ready scene s node pin = r at h
  cases h <;> exact ⟨rfl, rfl, rfl⟩

/-- What running the operation of a frame comes to. The node is no longer in progress; a result and
the fallback of a warning are kept. -/
inductive Ran (s : State) (f : Frame) : Except Fault Value × State → Prop
  | nothing (hk : f.node.kind.operation? = none) : Ran s f (.ok .null, s.unmark f.node.id)
  | result {operation : Operation} {v : Value} {generator : Generator}
    (hk : f.node.kind.operation? = some operation)
    (ho : operation f.inputs s.generator = .ok (v, generator)) :
    Ran s f (.ok v, State.store { s.unmark f.node.id with generator } (f.node.id, f.pin.id) v)
  | warning {operation : Operation} {message : Text} {v : Value}
    (hk : f.node.kind.operation? = some operation)
    (ho : operation f.inputs s.generator = .error (.warning message v)) :
    Ran s f (.ok v, ((s.unmark f.node.id).warn f.node message).store (f.node.id, f.pin.id) v)
  | fault {operation : Operation} {fault : Fault} (hk : f.node.kind.operation? = some operation)
    (ho : operation f.inputs s.generator = .error (.fault fault)) :
    Ran s f (.error fault, s.unmark f.node.id)

theorem ran_compute (s : State) (f : Frame) : Ran s f (compute s f) := by
  unfold compute
  dsimp only
  split
  · exact .nothing ‹_›
  · split
    · exact .result ‹_› ‹_›
    · exact .warning ‹_› ‹_›
    · exact .fault ‹_› ‹_›

theorem Ran.of_eq {f : Frame} {r : Except Fault Value × State} (h : compute s f = r) :
    Ran s f r := h ▸ ran_compute s f

end Evaluation

end NodeScript
