import NodeScript.Proofs.Execution
import NodeScript.Proofs.Lockstep

/-!
Operands that read alike. An operation on integers does two things with an operand: it reads a
number, and it shows the operand if it has to warn. So operands that read as the same number can
stand for each other. The result is the same, or the fallback is, and a warning differs only where
the operands themselves look different.
-/

namespace NodeScript

/-- The values read as the same number, and what is shown of them looks the same in this view. -/
structure Value.Alike (view : Text → Text) (v w : Value) : Prop where
  number : v.toNumber? = w.toNumber?
  shown : v.describe.map view = w.describe.map view

theorem Value.Alike.refl (view : Text → Text) (v : Value) : v.Alike view v := ⟨rfl, rfl⟩

/-- The two sets of inputs have alike operands, and both or none of them hide the generator. -/
structure Inputs.Alike (view : Text → Text) (i j : Inputs) : Prop where
  value : ∀ label, (i.value label).Alike view (j.value label)
  contains : i.contains generatorLabel = j.contains generatorLabel

namespace Inputs.Alike

variable {view : Text → Text} {i j : Inputs}

theorem refl (view : Text → Text) (i : Inputs) : i.Alike view i := ⟨fun _ => .refl view _, rfl⟩

theorem insert (h : i.Alike view j) (label : Text) {v w : Value} (hv : v.Alike view w) :
    Inputs.Alike view (OrderedMap.insert i label v) (OrderedMap.insert j label w) := by
  constructor
  · intro l
    by_cases hl : l = label
    · rw [hl, value_insert_self, value_insert_self]
      exact hv
    · rw [value_insert_of_ne _ hl, value_insert_of_ne _ hl]
      exact h.value l
  · unfold OrderedMap.contains
    by_cases hl : generatorLabel = label
    · rw [hl, OrderedMap.get?_insert_self, OrderedMap.get?_insert_self]
      rfl
    · rw [OrderedMap.get?_insert_of_ne _ hl, OrderedMap.get?_insert_of_ne _ hl]
      exact h.contains

end Inputs.Alike

/-- The computations end in the same way, and a warning looks the same in this view. -/
inductive Agrees {α : Type} (view : Text → Text) : Except Stop α → Except Stop α → Prop
  | result (x : α) : Agrees view (.ok x) (.ok x)
  | warning {s t : Text} (h : view s = view t) (fallback : Value) :
    Agrees view (.error (.warning s fallback)) (.error (.warning t fallback))
  | fault (f : Fault) : Agrees view (.error (.fault f)) (.error (.fault f))

namespace Agrees

variable {α β : Type} {view : Text → Text} {e e' : Except Stop α}

theorem refl (view : Text → Text) (e : Except Stop α) : Agrees view e e := by
  cases e with
  | ok x => exact .result x
  | error stop =>
    cases stop with
    | warning message fallback => exact .warning rfl fallback
    | fault f => exact .fault f

theorem map (h : Agrees view e e') (f : α → β) : Agrees view (e.map f) (e'.map f) := by
  cases h with
  | result x => exact .result (f x)
  | warning h fallback => exact .warning h fallback
  | fault f => exact .fault f

theorem bind (h : Agrees view e e') (f : α → Except Stop β) :
    Agrees view (e >>= f) (e' >>= f) := by
  cases h with
  | result x => exact .refl view (f x)
  | warning h fallback => exact .warning h fallback
  | fault f => exact .fault f

end Agrees

def NodeKind.takesIntegers (k : NodeKind) : Bool := k.template.inputs.any (·.type = .integer)

namespace Operation

theorem answers_of_map_eq {α β : Type} {f : α → β} {e e' : Except Fault α}
    (h : e.map f = e'.map f) : Run.Answers (fun a b => f a = f b) e e' := by
  cases e with
  | ok a =>
    cases e' with
    | ok b => exact .ok (Except.ok.inj h)
    | error fault => cases h
  | error fault =>
    cases e' with
    | ok b => cases h
    | error fault' =>
      cases h
      exact .error fault

theorem answers_shown {view : Text → Text} {vs ws : List Value}
    (h : List.Forall₂ (Value.Alike view) vs ws) :
    Run.Answers (List.Forall₂ fun s t => view s = view t) (shown vs) (shown ws) := by
  induction h with
  | nil => exact .ok .nil
  | @cons v w vs ws hvw _ ih =>
    have hdescribe := answers_of_map_eq hvw.shown
    rw [shown, shown]
    generalize v.describe = d at hdescribe ⊢
    generalize w.describe = d' at hdescribe ⊢
    cases hdescribe with
    | error fault => exact .error fault
    | ok hst =>
      generalize shown vs = e at ih ⊢
      generalize shown ws = e' at ih ⊢
      cases ih with
      | error fault => exact .error fault
      | ok hts => exact .ok (.cons hst hts)

section

variable {α : Type} {view : Text → Text} (hview : ∀ s t, view (s ++ t) = view s ++ view t)

include hview

theorem view_enumerate {ss ts : List Text} (h : List.Forall₂ (fun s t => view s = view t) ss ts) :
    view (enumerate ss) = view (enumerate ts) := by
  induction h with
  | nil => rfl
  | cons hst hrest ih =>
    cases hrest with
    | nil => exact hst
    | cons hst' hrest =>
      cases hrest with
      | nil => simp only [enumerate, hview, hst, hst']
      | cons => simp only [enumerate, hview, hst, ih]

/-- If as much can be read of these operands as of those, and they look the same, then a demand on
them comes to the same. -/
theorem agrees_demand (what : Text) {vs ws : List Value} (fallback : Value) {r r' : Option α}
    (h : List.Forall₂ (Value.Alike view) vs ws) (hr : r = r') :
    Agrees view (demand what vs fallback r) (demand what ws fallback r') := by
  subst hr
  cases r with
  | some x => exact .result x
  | none =>
    have hshown := answers_shown h
    unfold demand
    generalize shown vs = e at hshown ⊢
    generalize shown ws = e' at hshown ⊢
    cases hshown with
    | error f => exact .fault f
    | ok hts => exact .warning (by simp only [hview, view_enumerate hview hts]) fallback

variable {i j : Inputs} (h : i.Alike view j) {read : Value → Option α}
  (hread : ∀ {v w : Value}, v.toNumber? = w.toNumber? → read v = read w)

include h hread

omit hview in
theorem read_value_eq (label : Text) : read (i.value label) = read (j.value label) :=
  hread (h.value label).number

omit hview in
theorem both_value_eq (first second : Text) :
    both read (i.value first) (i.value second) = both read (j.value first) (j.value second) := by
  rw [both, both, read_value_eq h hread, read_value_eq h hread second]

omit hview hread in
theorem alike_values (labels : List Text) :
    List.Forall₂ (Value.Alike view) (labels.map i.value) (labels.map j.value) := by
  rw [List.forall₂_map_left_iff, List.forall₂_map_right_iff, List.forall₂_same]
  exact fun label _ => h.value label

theorem agrees_operand (label : Text) (fallback : Value) :
    Agrees view (operand read label fallback i) (operand read label fallback j) :=
  agrees_demand hview _ fallback (alike_values h [label]) (read_value_eq h hread label)

theorem agrees_operands (fallback : Value) :
    Agrees view (operands read fallback i) (operands read fallback j) :=
  agrees_demand hview _ fallback (alike_values h ["A", "B"]) (both_value_eq h hread "A" "B")

theorem agrees_bounds (lt : α → α → Bool) (fallback : Value) :
    Agrees view (bounds read lt fallback i) (bounds read lt fallback j) := by
  refine agrees_demand hview _ fallback (alike_values h ["Min", "Max"]) ?_
  rw [both_value_eq h hread "Min" "Max"]

theorem agrees_clamp (lt : α → α → Bool) (fallback : Value) :
    Agrees view (clamp read lt fallback i) (clamp read lt fallback j) := by
  refine agrees_demand hview _ fallback (alike_values h ["Value", "Min", "Max"]) ?_
  rw [read_value_eq h hread "Value", both_value_eq h hread "Min" "Max"]

theorem agrees_pick (choose : α → α → α) (fallback : Value) :
    Agrees view (pick read choose fallback i) (pick read choose fallback j) := by
  refine agrees_demand hview _ fallback (alike_values h ["A", "B"]) ?_
  rw [read_value_eq h hread "A", read_value_eq h hread "B"]

end

/-- An operation on integers makes no difference between operands that read alike. -/
theorem agrees_of_takesIntegers {view : Text → Text}
    (hview : ∀ s t, view (s ++ t) = view s ++ view t) {i j : Inputs} (h : i.Alike view j)
    {k : NodeKind} (hk : k.takesIntegers) {operation : Operation}
    (ho : k.operation? = some operation) (g : Generator) :
    Agrees view (operation i g) (operation j g) := by
  have hread {v w : Value} (hn : v.toNumber? = w.toNumber?) : v.toInteger? = w.toInteger? :=
    congrArg (Option.map Number.truncate) hn
  -- A comparison takes the numbers as they are read, all others round them to integers first.
  cases k with
  | addInteger | subtractInteger | multiplyInteger =>
    cases ho
    exact (((agrees_operands hview h hread _).map _).map _).map _
  | divideInteger | moduloInteger =>
    cases ho
    exact (((agrees_operands hview h hread _).bind _).map _).map _
  | clampInteger =>
    cases ho
    exact ((agrees_clamp hview h hread _ _).map _).map _
  | randomInteger =>
    cases ho
    unfold Operation.randomInteger draw
    rw [h.contains]
    exact (agrees_bounds hview h hread _ _).bind _
  | absoluteInteger =>
    cases ho
    exact (((agrees_operand hview h hread _ _).map _).map _).map _
  | minInteger | maxInteger =>
    cases ho
    exact ((agrees_pick hview h hread _ _).map _).map _
  | greaterThanInteger | lessThanInteger | equalsInteger =>
    cases ho
    exact ((agrees_operands hview h id _).map _).map _
  | intToFloat =>
    cases ho
    exact (((agrees_operand hview h hread _ _).bind _).map _).map _
  -- A counting loop takes integers as well, but not as an operation.
  | forLoop => cases ho
  | _ => exact absurd hk (by decide)

end Operation

namespace Evaluation

variable {view : Text → Text}

theorem result_eq_of_agrees {operation : Operation} {i j : Inputs}
    (h : ∀ g, Agrees view (operation i g) (operation j g)) :
    result operation i = result operation j := by
  have hg := h default
  unfold result
  generalize operation i default = e at hg ⊢
  generalize operation j default = e' at hg ⊢
  cases hg with
  | result x => rfl
  | warning h fallback => rfl
  | fault f => rfl

theorem result_plain {f : Inputs → Except Stop Value} {i : Inputs} {v : Value}
    (h : f i = .ok v) : result (.plain f) i = .ok v := by
  simp [result, Operation.plain, h, Except.map]

theorem collect_alike {α β : Type} {label : α → Text} {label' : β → Text}
    {flow : α → Except Fault Value} {flow' : β → Except Fault Value} {as : List α} {bs : List β}
    (h : List.Forall₂ (fun a b => label a = label' b ∧
      Run.Answers (Value.Alike view) (flow a) (flow' b)) as bs)
    {i j : Inputs} (hi : i.Alike view j) :
    Run.Answers (Inputs.Alike view) (collect label flow as i) (collect label' flow' bs j) := by
  induction h generalizing i j with
  | nil => exact .ok hi
  | @cons a b as bs hab _ ih =>
    obtain ⟨hlabel, hflow⟩ := hab
    rw [collect, collect, hlabel]
    generalize flow a = e at hflow ⊢
    generalize flow' b = e' at hflow ⊢
    cases hflow with
    | ok hv => exact ih (hi.insert (label' b) hv)
    | error fault => exact .error fault

namespace Meaning

def originValue (scene : Scene) (hg : scene.graph.Acyclic) : Origin → Except Fault Value
  | .value v => .ok v
  | .output source out => outputValue scene hg source out

theorem operationValue_eq_sources {scene : Scene} {hg : scene.graph.Acyclic} {node : Node}
    {operation : Operation} (hk : node.kind.operation? = some operation) :
    operationValue scene hg node =
      match collect Prod.fst (fun source => originValue scene hg source.2)
        (sources scene.graph node) (ownInputs node) with
      | .ok inputs => result operation inputs
      | .error fault => .error fault := by
  rw [operationValue_eq hk, sources, collect_map]
  rfl

theorem originValue_of_operation {scene : Scene} {hg : scene.graph.Acyclic} {node : Node}
    {pin : Pin} {operation : Operation} {inputs : Inputs} (data : pin.isExec = false)
    (hk : node.kind.operation? = some operation)
    (hc : collect Prod.fst (fun source => originValue scene hg source.2)
      (sources scene.graph node) (ownInputs node) = .ok inputs) :
    originValue scene hg (.output node pin) = result operation inputs := by
  have hnone : immediate? scene node pin = none :=
    immediate?_eq_none_iff.mpr ⟨data, by rw [hk]; rfl⟩
  rw [originValue, outputValue, hnone]
  dsimp only
  rw [operationValue_eq_sources hk, hc]

/-- Two nodes of a kind that takes integers have the same value if what flows into them is alike. -/
theorem operationValue_eq_of_alike (hview : ∀ s t, view (s ++ t) = view s ++ view t)
    {scene scene' : Scene} {hg : scene.graph.Acyclic} {hg' : scene'.graph.Acyclic}
    {node node' : Node} (hkind : node'.kind = node.kind)
    (hproperties : node'.properties = node.properties) (hk : node.kind.takesIntegers)
    (h : List.Forall₂ (fun a b => a.1 = b.1 ∧ Run.Answers (Value.Alike view)
      (originValue scene hg a.2) (originValue scene' hg' b.2))
      (sources scene.graph node) (sources scene'.graph node')) :
    operationValue scene hg node = operationValue scene' hg' node' := by
  cases ho : node.kind.operation? with
  | none => rw [operationValue_of_none ho, operationValue_of_none (hkind ▸ ho)]
  | some operation =>
    rw [operationValue_eq_sources ho, operationValue_eq_sources (hkind ▸ ho)]
    have hown : (ownInputs node).Alike view (ownInputs node') := by
      rw [ownInputs, ownInputs, hproperties]
      exact .refl view _
    have hcollected := collect_alike h hown
    generalize collect _ _ (sources scene.graph node) _ = e at hcollected ⊢
    generalize collect _ _ (sources scene'.graph node') _ = e' at hcollected ⊢
    cases hcollected with
    | ok hi =>
      exact result_eq_of_agrees fun g => Operation.agrees_of_takesIntegers hview hi hk ho g
    | error fault => rfl

end Meaning

end Evaluation

end NodeScript
