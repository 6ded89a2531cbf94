import NodeScript.Proofs.Readiness

/-!
What the outputs of an acyclic graph mean, told without stack, results kept or nodes in progress.
The value of a node is its operation applied to the values that flow into it; where there is no
operation, an output shows the state of the run.
-/

namespace NodeScript.Evaluation

/-- The result of an operation that draws nothing at random. A warning leaves its fallback. -/
def result (operation : Operation) (inputs : Inputs) : Except Fault Value :=
  match operation inputs default with
  | .ok (v, _) => .ok v
  | .error (.warning _ v) => .ok v
  | .error (.fault fault) => .error fault

def collect {α : Type} (label : α → Text) (flow : α → Except Fault Value) :
    List α → Inputs → Except Fault Inputs
  | [], inputs => .ok inputs
  | a :: as, inputs =>
    match flow a with
    | .ok v => collect label flow as (inputs.insert (label a) v)
    | .error fault => .error fault

theorem collect_map {α β : Type} (f : β → α) (label : α → Text) (flow : α → Except Fault Value)
    (bs : List β) (inputs : Inputs) :
    collect label flow (bs.map f) inputs = collect (label ∘ f) (flow ∘ f) bs inputs := by
  induction bs generalizing inputs with
  | nil => rfl
  | cons b bs ih =>
    rw [List.map_cons, collect, collect, Function.comp_apply]
    cases flow (f b) with
    | ok v => exact ih _
    | error fault => rfl

theorem collect_congr {α : Type} {label : α → Text} {flow : α → Except Fault Value}
    (flow' : α → Except Fault Value) {as : List α} (h : ∀ a ∈ as, flow a = flow' a)
    (inputs : Inputs) :
    collect label flow as inputs = collect label flow' as inputs := by
  induction as generalizing inputs with
  | nil => rfl
  | cons a as ih =>
    have ht : ∀ b ∈ as, flow b = flow' b := fun b hb => h b (List.mem_cons_of_mem a hb)
    rw [collect, collect, h a List.mem_cons_self]
    cases flow' a with
    | ok v => exact ih ht _
    | error fault => rfl

def ownInputs (node : Node) : Inputs :=
  ⟨[(Inputs.propertiesLabel, .record node.properties.entries)]⟩

theorem feeds_of_origin {scene : Scene} {node source : Node} {pin out : Pin}
    (hk : node.kind.operation?.isSome = true) (hp : pin ∈ node.dataInputs)
    (ho : origin scene.graph node pin = .output source out)
    (hi : immediate? scene source out = none) : scene.graph.Feeds source node := by
  obtain ⟨he, hs⟩ := immediate?_eq_none_iff.mp hi
  exact ⟨hs, hk, pin, hp, out, ho, he⟩

namespace Meaning

def operationValue (scene : Scene) (hg : scene.graph.Acyclic) (node : Node) :
    Except Fault Value :=
  match _hk : node.kind.operation? with
  | none => .ok .null
  | some operation =>
    let flow (p : {pin // pin ∈ node.dataInputs}) : Except Fault Value :=
      match _ho : origin scene.graph node p.1 with
      | .value v => .ok v
      | .output source out =>
        match _hi : immediate? scene source out with
        | some r => r
        | none => operationValue scene hg source
    match collect (fun p => p.1.label) flow node.dataInputs.attach (ownInputs node) with
    | .ok inputs => result operation inputs
    | .error fault => .error fault
termination_by hg.wellFounded.wrap node
decreasing_by
  have hs : node.kind.operation?.isSome = true := by rw [_hk]; rfl
  exact feeds_of_origin hs p.2 _ho _hi

def outputValue (scene : Scene) (hg : scene.graph.Acyclic) (node : Node) (pin : Pin) :
    Except Fault Value :=
  match immediate? scene node pin with
  | some r => r
  | none => operationValue scene hg node

def inputValue (scene : Scene) (hg : scene.graph.Acyclic) (node : Node) (pin : Pin) :
    Except Fault Value :=
  match origin scene.graph node pin with
  | .value v => .ok v
  | .output source out => outputValue scene hg source out

def labelValue (scene : Scene) (hg : scene.graph.Acyclic) (node : Node) (label : Text) :
    Except Fault Value :=
  match node.inputPin? label with
  | none => .ok (fallback node label)
  | some pin => inputValue scene hg node pin

def pinValue (scene : Scene) (hg : scene.graph.Acyclic) (nodeId pinId : Text) :
    Except Fault Value :=
  match scene.graph.node? nodeId with
  | none => .ok .null
  | some node =>
    match node.outputs.find? (·.id = pinId) with
    | some pin => outputValue scene hg node pin
    | none =>
      match node.inputs.find? (·.id = pinId) with
      | some pin => inputValue scene hg node pin
      | none => .ok .null

variable {scene : Scene} {hg : scene.graph.Acyclic} {node : Node}

/-- The value of a node is its operation applied to the values of its inputs. -/
theorem operationValue_eq {operation : Operation} (hk : node.kind.operation? = some operation) :
    operationValue scene hg node =
      match collect Pin.label (inputValue scene hg node) node.dataInputs (ownInputs node) with
      | .ok inputs => result operation inputs
      | .error fault => .error fault := by
  rw [operationValue]
  split
  · rename_i hn
    rw [hn] at hk
    cases hk
  · rename_i operation' hk'
    rw [hk, Option.some.injEq] at hk'
    subst hk'
    have hv := collect_map Subtype.val Pin.label (inputValue scene hg node) node.dataInputs.attach
      (ownInputs node)
    rw [List.attach_map_subtype_val] at hv
    rw [hv]
    dsimp only
    rw [collect_congr (inputValue scene hg node ∘ Subtype.val)]
    · rfl
    · intro p _
      unfold inputValue outputValue
      rw [Function.comp_apply]
      split
      · rename_i ho
        rw [ho]
      · rename_i ho
        rw [ho]
        dsimp only
        split
        · rename_i hi
          rw [hi]
        · rename_i hi
          rw [hi]

theorem operationValue_of_none (hk : node.kind.operation? = none) :
    operationValue scene hg node = .ok .null := by
  rw [operationValue]
  split
  · rfl
  · rename_i hs
    rw [hs] at hk
    cases hk

end Meaning

end NodeScript.Evaluation

namespace NodeScript

open Evaluation Relation

/-- The index of the loop `f` flows into the operation of `n`. -/
def Graph.Counts (g : Graph) (f n : Node) : Prop :=
  f.kind = .forLoop ∧
    ∃ pin ∈ n.dataInputs, ∃ out, origin g n pin = .output f out ∧ out.isExec = false

/-- The value of `n` depends on the index of the loop `f`. -/
def Graph.DependsOnLoop (g : Graph) (n f : Node) : Prop :=
  ∃ m, ReflTransGen g.Feeds m n ∧ g.Counts f m

theorem Graph.Counts.dependsOnLoop {g : Graph} {f n : Node} (h : g.Counts f n) :
    g.DependsOnLoop n f := ⟨n, .refl, h⟩

theorem Graph.DependsOnLoop.isLoop {g : Graph} {f n : Node} (h : g.DependsOnLoop n f) :
    f ∈ g.nodes ∧ f.kind = .forLoop := by
  obtain ⟨m, -, hf, pin, -, out, ho, -⟩ := h
  exact ⟨mem_nodes_of_origin ho, hf⟩

theorem Graph.DependsOnLoop.of_feeds {g : Graph} {f m n : Node} (h : g.DependsOnLoop m f)
    (hm : g.Feeds m n) : g.DependsOnLoop n f := by
  obtain ⟨k, hk, hc⟩ := h
  exact ⟨k, hk.tail hm, hc⟩

namespace Evaluation.Meaning

variable {scene : Scene} {hg : scene.graph.Acyclic} {node : Node}

theorem immediate?_congr {pin : Pin} (loops : Loops) (memo : Bool)
    (h : node.kind = .forLoop → pin.isExec = false →
      scene.loops.currentIndex node.id = loops.currentIndex node.id) :
    immediate? scene node pin = immediate? { scene with loops, memo } node pin := by
  unfold immediate?
  split
  · rfl
  · rename_i he
    rw [Bool.or_eq_true, not_or, Bool.not_eq_true] at he
    split
    · rfl
    · rename_i hk
      rw [h hk he.1]
    · rfl

/-- A value is the same under loops that show the same indices to the operations it depends on,
and whether results are used again or not. -/
theorem operationValue_congr (loops : Loops) (memo : Bool)
    (h : ∀ f, scene.graph.DependsOnLoop node f →
      scene.loops.currentIndex f.id = loops.currentIndex f.id) :
    operationValue scene hg node = operationValue { scene with loops, memo } hg node := by
  induction node using hg.wellFounded.induction with
  | _ node ih =>
    cases hk : node.kind.operation? with
    | none => rw [operationValue_of_none hk, operationValue_of_none hk]
    | some operation =>
      rw [operationValue_eq hk, operationValue_eq hk]
      have hc : collect Pin.label (inputValue scene hg node) node.dataInputs (ownInputs node) =
          collect Pin.label (inputValue { scene with loops, memo } hg node) node.dataInputs
            (ownInputs node) := by
        refine collect_congr _ (fun pin hp => ?_) _
        unfold inputValue
        cases ho : origin scene.graph node pin with
        | value v => rfl
        | output source out =>
          have hi : immediate? scene source out =
              immediate? { scene with loops, memo } source out :=
            immediate?_congr loops memo fun hf he =>
              h source (Graph.Counts.dependsOnLoop ⟨hf, pin, hp, out, ho, he⟩)
          dsimp only
          unfold outputValue
          rw [← hi]
          cases hn : immediate? scene source out with
          | some r => rfl
          | none =>
            have hm := feeds_of_origin (by rw [hk]; rfl) hp ho hn
            exact ih source hm fun f hf => h f (hf.of_feeds hm)
      rw [hc]

end Evaluation.Meaning

end NodeScript
