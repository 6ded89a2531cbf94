import NodeScript.Operation
import NodeScript.Template
import NodeScript.Proofs.Except
import NodeScript.Proofs.Texts

/-!
How operations end. An operation gives a result if its operands can be used, and warns otherwise;
what it then shows is the zero of the type of its output. There are two exceptions: an operand has
to be written, in a result or in a warning, and has no text, because it holds an integer that is too
long or has too many levels; or an integer is to become a float and is out of range.
-/

namespace NodeScript

def Value.isPresent : Value → Bool
  | null => false
  | _ => true

/-- How an operation uses its operands. -/
inductive Use
  | values
  | texts
  | numbers (accepts : Value → Bool)
  | choice (accepts : Value → Bool)
  /-- The operands are read in turn, and all but the first may be absent. -/
  | inTurn (accepts : Value → Bool)

namespace Use

def turns : List Value → List Value
  | [] => []
  | v :: vs => v :: vs.filter Value.isPresent

def met : Use → List Value → Bool
  | values, _ | texts, _ => true
  | numbers accepts, vs => vs.all accepts
  | choice accepts, vs => vs.any accepts
  | inTurn accepts, vs => (turns vs).all accepts

/-- The operands that are to be written: those of a text, and those that a warning names. -/
def written : Use → List Value → List Value
  | values, _ => []
  | texts, vs => vs
  | numbers accepts, vs => if vs.all accepts then [] else vs
  | choice accepts, vs => if vs.any accepts then [] else vs
  | inTurn accepts, vs => ((turns vs).find? (!accepts ·)).toList

theorem mem_of_mem_written {use : Use} {v : Value} {vs : List Value} (h : v ∈ use.written vs) :
    v ∈ vs := by
  cases use with
  | values => cases h
  | texts => exact h
  | numbers accepts | choice accepts =>
    rw [written] at h
    split at h
    · cases h
    · exact h
  | inTurn accepts =>
    have hturn : v ∈ turns vs := List.mem_of_find?_eq_some (Option.mem_toList.mp h)
    cases vs with
    | nil => exact hturn
    | cons w ws => exact (List.filter_sublist.cons_cons w).subset hturn

end Use

def DataType.zero : DataType → Value
  | integer => .int 0
  | float => .float 0
  | boolean => .bool false
  | string => .text ""
  | exec | any => .null

namespace NodeKind

def use : NodeKind → Use
  | addInteger | subtractInteger | multiplyInteger | divideInteger | moduloInteger
  | clampInteger | randomInteger | absoluteInteger | intToFloat =>
    .numbers (·.toInteger?.isSome)
  | minInteger | maxInteger => .choice (·.toInteger?.isSome)
  | addFloat | subtractFloat | multiplyFloat | divideFloat | clampFloat | randomFloat
  | absoluteFloat | powerFloat | squareRootFloat | floorFloat | ceilFloat | roundFloat
  | floatToInt =>
    .numbers (·.toFloat?.isSome)
  | minFloat | maxFloat => .choice (·.toFloat?.isSome)
  | lerpFloat => .inTurn (·.toFloat?.isSome)
  | greaterThanInteger | lessThanInteger | equalsInteger
  | greaterThanFloat | lessThanFloat | equalsFloat =>
    .numbers (·.toNumber?.isSome)
  | concatString | stringLength | toString => .texts
  | _ => .values

def operands (k : NodeKind) (i : Inputs) : List Value := k.template.inputs.map (i.value ·.label)

def dividesByZero : NodeKind → Inputs → Bool
  | divideInteger, i | moduloInteger, i => (i.value "B").toInteger?.any (· == 0)
  | divideFloat, i => (i.value "B").toFloat?.any (· == 0)
  | _, _ => false

/-- The operands can be used, also to divide by. -/
def Usable (k : NodeKind) (i : Inputs) : Prop :=
  k.use.met (k.operands i) = true ∧ k.dividesByZero i = false

def Legible (k : NodeKind) (i : Inputs) : Prop :=
  ∀ v ∈ k.use.written (k.operands i), v.Writable

def Avoids (k : NodeKind) (i : Inputs) (f : Fault) : Prop :=
  ∀ v ∈ k.use.written (k.operands i), v.Avoids .text Value.depthLimit f

theorem legible_iff {k : NodeKind} {i : Inputs} : k.Legible i ↔ ∀ f, k.Avoids i f :=
  ⟨fun h f v hv => h v hv f, fun h v hv f => h f v hv⟩

def InRange (k : NodeKind) (i : Inputs) : Prop :=
  k = intToFloat → ∀ n, (i.value "Value").toInteger? = some n → (Binary64.ofInt? n).isSome

def fallback (k : NodeKind) : Value :=
  match k.template.outputs with
  | [] => .null
  | out :: _ => out.type.zero

end NodeKind

/-- A message that operations warn with: it says what was expected, or what was attempted. -/
def Remark (message : Text) : Prop :=
  ∃ rest : Text, message = "expected " ++ rest ∨ message = "attempted " ++ rest

/-- How a computation ends. It fails if something that is to be written has no text; else it warns,
with this fallback, if its inputs are not usable; else it fails if a number is out of range. -/
inductive Ends {α : Type} (usable : Prop) (legible : Fault → Prop) (inRange : Prop)
    (fallback : Value) : Except Stop α → Prop
  | result {x : α} (hu : usable) (hl : ∀ f, legible f) (hr : inRange) :
    Ends usable legible inRange fallback (.ok x)
  | warning {message : Text} (hm : Remark message) (hu : ¬usable) (hl : ∀ f, legible f) :
    Ends usable legible inRange fallback (.error (.warning message fallback))
  | unwritten {f : Fault} (hl : ¬legible f) :
    Ends usable legible inRange fallback (.error (.fault f))
  | tooLarge (hu : usable) (hl : ∀ f, legible f) (hr : ¬inRange) :
    Ends usable legible inRange fallback (.error (.fault .integerTooLarge))

namespace Ends

variable {α β : Type} {u u' r r' : Prop} {l l' : Fault → Prop} {fallback : Value}
  {e : Except Stop α}

theorem congr (h : Ends u l r fallback e) (hu : u ↔ u') (hl : ∀ f, l f ↔ l' f) (hr : r ↔ r') :
    Ends u' l' r' fallback e := by
  rw [← propext hu, ← funext fun f => propext (hl f), ← propext hr]
  exact h

theorem map (h : Ends u l r fallback e) (f : α → β) : Ends u l r fallback (e.map f) := by
  cases h with
  | result hu hl hr => exact .result hu hl hr
  | warning hm hu hl => exact .warning hm hu hl
  | unwritten hl => exact .unwritten hl
  | tooLarge hu hl hr => exact .tooLarge hu hl hr

/-- What comes second matters only if the first has a result. -/
theorem bind (h : Ends u l True fallback e) {f : α → Except Stop β}
    (hf : ∀ x, e = .ok x → Ends u' l' r fallback (f x)) :
    Ends (u ∧ u') (fun f => l f ∧ (u → l' f)) r fallback (e >>= f) := by
  cases h with
  | result hu hl _ =>
    exact (hf _ rfl).congr (and_iff_right hu).symm (fun f => by simp [hu, hl f]) .rfl
  | warning hm hu hl => exact .warning hm (fun h => hu h.1) fun f => ⟨hl f, fun h => absurd h hu⟩
  | unwritten hl => exact .unwritten fun h => hl h.1
  | tooLarge _ _ hr => exact absurd trivial hr

theorem bind_check (h : Ends u l True fallback e) {f : α → Except Stop β}
    (hf : ∀ x, e = .ok x → Ends u' (fun _ => True) r fallback (f x)) :
    Ends (u ∧ u') l r fallback (e >>= f) :=
  (h.bind hf).congr .rfl (by simp) .rfl

theorem bind_used (h : Ends u l True fallback e) {f : α → Except Stop β}
    (hf : ∀ x, e = .ok x → Ends True (fun _ => True) r fallback (f x)) :
    Ends u l r fallback (e >>= f) :=
  (h.bind_check hf).congr (and_iff_left trivial) (fun _ => .rfl) .rfl

theorem of_writtenIf {e : Except Fault α} (h : WrittenIf l e) :
    Ends True l True fallback (e.mapError .fault) := by
  cases e with
  | ok x => exact .result trivial (h.ok x rfl) trivial
  | error f => exact .unwritten (h.error f rfl)

theorem eq_ok (h : Ends u l r fallback e) (hu : u) (hl : ∀ f, l f) (hr : r) :
    ∃ x, e = .ok x := by
  cases h with
  | result => exact ⟨_, rfl⟩
  | warning _ hu' => exact absurd hu hu'
  | unwritten hl' => exact absurd (hl _) hl'
  | tooLarge _ _ hr' => exact absurd hr hr'

theorem eq_warning (h : Ends u l r fallback e) (hu : ¬u) (hl : ∀ f, l f) :
    ∃ message, Remark message ∧ e = .error (.warning message fallback) := by
  cases h with
  | result hu' => exact absurd hu' hu
  | warning hm => exact ⟨_, hm, rfl⟩
  | unwritten hl' => exact absurd (hl _) hl'
  | tooLarge hu' => exact absurd hu' hu

theorem eq_fault (h : Ends u l r fallback e) (hl : ¬∀ f, l f) :
    ∃ f, ¬l f ∧ e = .error (.fault f) := by
  cases h with
  | result _ hl' => exact absurd hl' hl
  | warning _ _ hl' => exact absurd hl' hl
  | unwritten hl' => exact ⟨_, hl', rfl⟩
  | tooLarge _ hl' => exact absurd hl' hl

theorem eq_tooLarge (h : Ends u l r fallback e) (hu : u) (hl : ∀ f, l f) (hr : ¬r) :
    e = .error (.fault .integerTooLarge) := by
  cases h with
  | result _ _ hr' => exact absurd hr' hr
  | warning _ hu' => exact absurd hu hu'
  | unwritten hl' => exact absurd (hl _) hl'
  | tooLarge => rfl

/-- The computation does with its operands what it is said to do. -/
def Follows (use : Use) (vs : List Value) (fallback : Value) (e : Except Stop α) : Prop :=
  Ends (use.met vs = true) (fun f => ∀ v ∈ use.written vs, v.Avoids .text Value.depthLimit f) True
    fallback e

end Ends

namespace Operation

open Ends

section

variable {α : Type} (what : Text) {vs : List Value} (fallback : Value) {r : Option α}
  {accepts : Value → Bool}

theorem writtenIf_shown (vs : List Value) :
    WrittenIf (fun f => ∀ v ∈ vs, v.Avoids .text Value.depthLimit f) (shown vs) := by
  induction vs with
  | nil => exact .of_ok (fun _ _ hv => absurd hv List.not_mem_nil) _
  | cons v vs ih =>
    exact (v.writtenIf_describe.bind fun t => ih.map (t :: ·)).congr fun f => by
      rw [List.forall_mem_cons]

/-- A demand that is not met is turned into a warning that shows everything it is about. -/
theorem ends_demand_none (vs : List Value) :
    Ends False (fun f => ∀ v ∈ vs, v.Avoids .text Value.depthLimit f) True fallback
      (demand what vs fallback (none : Option α)) := by
  have h := writtenIf_shown vs
  unfold demand
  cases hs : shown vs with
  | ok ts => exact .warning ⟨_, .inl rfl⟩ id (h.ok ts hs)
  | error f => exact .unwritten (h.error f hs)

theorem follows_numbers (h : r.isSome = vs.all accepts) :
    Follows (.numbers accepts) vs fallback (demand what vs fallback r) := by
  cases r with
  | some x => exact .result h.symm (fun f => by simp [Use.written, ← h]) trivial
  | none =>
    exact (ends_demand_none what fallback vs).congr (by simp [Use.met, ← h])
      (by simp [Use.written, ← h]) .rfl

theorem follows_choice (h : r.isSome = vs.any accepts) :
    Follows (.choice accepts) vs fallback (demand what vs fallback r) := by
  cases r with
  | some x => exact .result h.symm (fun f => by simp [Use.written, ← h]) trivial
  | none =>
    exact (ends_demand_none what fallback vs).congr (by simp [Use.met, ← h])
      (by simp [Use.written, ← h]) .rfl

end

variable {α : Type} (read : Value → Option α) (lt : α → α → Bool) (fallback : Value) (i : Inputs)

theorem isSome_both (v w : Value) :
    (both read v w).isSome = [v, w].all fun v => (read v).isSome := by
  cases hv : read v <;> cases hw : read w <;> simp [both, hv, hw]

theorem follows_operandsAt (first second : Text) :
    Follows (.numbers fun v => (read v).isSome) [i.value first, i.value second] fallback
      (operandsAt first second read fallback i) :=
  follows_numbers _ _ (isSome_both read _ _)

theorem follows_operands :
    Follows (.numbers fun v => (read v).isSome) [i.value "A", i.value "B"] fallback
      (operands read fallback i) :=
  follows_operandsAt read fallback i "A" "B"

theorem follows_operand (label : Text) :
    Follows (.numbers fun v => (read v).isSome) [i.value label] fallback
      (operand read label fallback i) :=
  follows_numbers _ _ (by simp)

theorem follows_bounds :
    Follows (.numbers fun v => (read v).isSome) [i.value "Min", i.value "Max"] fallback
      (bounds read lt fallback i) :=
  follows_numbers _ _ (by rw [Option.isSome_map, isSome_both])

theorem follows_clamp :
    Follows (.numbers fun v => (read v).isSome) [i.value "Value", i.value "Min", i.value "Max"]
      fallback (clamp read lt fallback i) := by
  refine follows_numbers _ _ ?_
  have hboth := isSome_both read (i.value "Min") (i.value "Max")
  rw [List.all_cons, ← hboth]
  cases read (i.value "Value") <;> cases both read (i.value "Min") (i.value "Max") <;> rfl

theorem follows_pick (choose : α → α → α) :
    Follows (.choice fun v => (read v).isSome) [i.value "A", i.value "B"] fallback
      (pick read choose fallback i) := by
  refine follows_choice _ _ ?_
  cases ha : read (i.value "A") <;> cases hb : read (i.value "B") <;> simp [Option.merge, ha, hb]

variable {u r : Prop} {l : Fault → Prop} {fallback i}

theorem ends_int {f : Inputs → Except Stop Int} (h : Ends u l r fallback (f i)) (g : Generator) :
    Ends u l r fallback (int f i g) := (h.map _).map _

theorem ends_float {f : Inputs → Except Stop Float} (h : Ends u l r fallback (f i))
    (g : Generator) : Ends u l r fallback (float f i g) := (h.map _).map _

theorem ends_integerDivision (f : Int → Int → Int) {warning : Text} (hw : Remark warning)
    (i : Inputs) (g : Generator) :
    Ends
      (Use.met (.numbers (·.toInteger?.isSome)) [i.value "A", i.value "B"] = true ∧
        (i.value "B").toInteger?.any (· == 0) = false)
      (fun f => ∀ v ∈ Use.written (.numbers (·.toInteger?.isSome)) [i.value "A", i.value "B"],
        v.Avoids .text Value.depthLimit f)
      True (.int 0) (integerDivision f warning i g) := by
  refine ends_int ((follows_operands Value.toInteger? (.int 0) i).bind_check fun p hp => ?_) g
  obtain ⟨a, b⟩ := p
  obtain ⟨-, hb⟩ := operands_eq_ok_iff.mp hp
  rw [hb]
  dsimp only
  by_cases hz : b = 0
  · rw [if_pos hz]
    exact .warning hw (by simp [hz]) fun _ => trivial
  · rw [if_neg hz]
    exact .result (by simp [hz]) (fun _ => trivial) trivial

theorem ends_floatDivision (i : Inputs) (g : Generator) :
    Ends
      (Use.met (.numbers (·.toFloat?.isSome)) [i.value "A", i.value "B"] = true ∧
        (i.value "B").toFloat?.any (· == 0) = false)
      (fun f => ∀ v ∈ Use.written (.numbers (·.toFloat?.isSome)) [i.value "A", i.value "B"],
        v.Avoids .text Value.depthLimit f)
      True (.float 0) (floatDivision i g) := by
  refine ends_float ((follows_operands Value.toFloat? (.float 0) i).bind_check fun p hp => ?_) g
  obtain ⟨a, b⟩ := p
  obtain ⟨-, hb⟩ := operands_eq_ok_iff.mp hp
  rw [hb]
  dsimp only
  by_cases hz : (b == 0) = true
  · rw [if_pos hz]
    exact .warning ⟨"to divide by zero. Returning 0.", .inr (by decide)⟩ (by simp [hz])
      fun _ => trivial
  · rw [if_neg hz]
    exact .result (by simp [hz]) (fun _ => trivial) trivial

theorem ends_intToFloat (i : Inputs) (g : Generator) :
    Ends (Use.met (.numbers (·.toInteger?.isSome)) [i.value "Value"] = true)
      (fun f => ∀ v ∈ Use.written (.numbers (·.toInteger?.isSome)) [i.value "Value"],
        v.Avoids .text Value.depthLimit f)
      (∀ n, (i.value "Value").toInteger? = some n → (Binary64.ofInt? n).isSome) (.float 0)
      (Operation.intToFloat i g) := by
  have hread := follows_operand Value.toInteger? (.float 0) i "Value"
  refine ends_float (hread.bind_used fun n hn => ?_) g
  have hrange : (∀ m, (i.value "Value").toInteger? = some m → (Binary64.ofInt? m).isSome) ↔
      (Binary64.ofInt? n).isSome := by
    rw [operand_eq_ok_iff.mp hn]
    simp
  cases hx : Binary64.ofInt? n with
  | some x => exact .result trivial (fun _ => trivial) (by simp [hrange, hx])
  | none => exact .tooLarge trivial (fun _ => trivial) (by simp [hrange, hx])

theorem follows_displayed (i : Inputs) (label : Text) :
    Follows .texts [i.value label] fallback (displayed i label) :=
  (of_writtenIf (i.value label).writtenIf_display).congr (by simp [Use.met])
    (by simp [Use.written]) .rfl

theorem follows_concatenate (i : Inputs) (g : Generator) :
    Follows .texts [i.value "A", i.value "B"] fallback (concatenate i g) := by
  have hfirst : Follows .texts [i.value "A"] fallback (displayed i "A") := follows_displayed i "A"
  have hboth := hfirst.bind fun a _ => (follows_displayed i "B").map fun b => Value.text (a ++ b)
  exact (hboth.congr (by simp [Use.met]) (by simp [Use.met, Use.written]) .rfl).map _

/-- The computation reads these operands as floats, up to the first that is none. -/
def ReadsInTurn (vs : List Value) (e : Except Stop α) : Prop :=
  Ends (vs.all (·.toFloat?.isSome) = true)
    (fun f => ∀ v ∈ (vs.find? (!·.toFloat?.isSome)).toList, v.Avoids .text Value.depthLimit f) True
    (.float 0) e

section

variable {label : Text} {vs : List Value} {f : Float → Except Stop α}

theorem readsInTurn_cons (hf : ∀ x, ReadsInTurn vs (f x)) :
    ReadsInTurn (i.value label :: vs) (operand Value.toFloat? label (.float 0) i >>= f) := by
  have hread := follows_operand Value.toFloat? (.float 0) i label
  refine (hread.bind fun x _ => hf x).congr ?_ (fun f => ?_) .rfl
  · simp [Use.met]
  · cases hx : (i.value label).toFloat? <;> simp [Use.met, Use.written, hx]

theorem readsInTurn_optional (x : Float) (hf : ∀ y, ReadsInTurn (vs.filter Value.isPresent) (f y)) :
    ReadsInTurn ((i.value label :: vs).filter Value.isPresent)
      (match i.value label with
      | .null => pure x >>= f
      | _ => operand Value.toFloat? label (.float 0) i >>= f) := by
  split
  · rename_i hv
    rw [hv]
    exact hf x
  · rename_i hv
    have hpresent : (i.value label).isPresent = true := by
      cases h : i.value label with
      | null => exact absurd h hv
      | _ => rfl
    rw [List.filter_cons_of_pos hpresent]
    exact readsInTurn_cons hf

end

theorem follows_interpolate (i : Inputs) (g : Generator) :
    Follows (.inTurn (·.toFloat?.isSome)) [i.value "A", i.value "B", i.value "Alpha"] (.float 0)
      (interpolate i g) := by
  apply ends_float
  refine readsInTurn_cons fun a => ?_
  refine readsInTurn_optional a fun b => ?_
  exact readsInTurn_optional 0 fun alpha => .result rfl (fun _ => nofun) trivial

theorem follows_randomInteger (i : Inputs) (g : Generator) :
    Follows (.numbers (·.toInteger?.isSome)) [i.value "Min", i.value "Max"] (.int 0)
      (Operation.randomInteger i g) :=
  (follows_bounds _ _ _ i).bind_used fun _ _ => .result trivial (fun _ => trivial) trivial

theorem follows_randomFloat (i : Inputs) (g : Generator) :
    Follows (.numbers (·.toFloat?.isSome)) [i.value "Min", i.value "Max"] (.float 0)
      (Operation.randomFloat i g) := by
  refine (follows_bounds _ _ _ i).bind_used fun (lo, hi) _ => ?_
  dsimp only
  split
  · exact .result trivial (fun _ => trivial) trivial
  · exact .result trivial (fun _ => trivial) trivial

end Operation

open Operation

namespace NodeKind

variable {k : NodeKind} {i : Inputs}

theorem ends_of_follows {e : Except Stop (Value × Generator)}
    (h : Ends.Follows k.use (k.operands i) k.fallback e) (hz : k.dividesByZero i = false)
    (hk : k ≠ intToFloat) : Ends (k.Usable i) (k.Avoids i) (k.InRange i) k.fallback e :=
  h.congr (by simp [Usable, hz]) (fun _ => .rfl) (by simp [InRange, hk])

/-- What the operands are decides how an operation ends. -/
theorem ends_operation {operation : Operation} (h : k.operation? = some operation) (i : Inputs)
    (g : Generator) :
    Ends (k.Usable i) (k.Avoids i) (k.InRange i) k.fallback (operation i g) := by
  cases k <;> cases h
  case stringLiteral | integerLiteral | floatLiteral | booleanLiteral | booleanNot =>
    exact ends_of_follows (.result rfl (fun _ => nofun) trivial) rfl nofun
  case addInteger | subtractInteger | multiplyInteger =>
    exact ends_of_follows (ends_int ((follows_operands _ _ i).map _) g) rfl nofun
  case divideInteger =>
    have hw : Remark "attempted to divide by zero. Returning 0." :=
      ⟨"to divide by zero. Returning 0.", .inr (by decide)⟩
    exact (ends_integerDivision _ hw i g).congr .rfl (fun _ => .rfl) (by simp [InRange])
  case moduloInteger =>
    have hw : Remark "attempted modulo by zero. Returning 0." :=
      ⟨"modulo by zero. Returning 0.", .inr (by decide)⟩
    exact (ends_integerDivision _ hw i g).congr .rfl (fun _ => .rfl) (by simp [InRange])
  case clampInteger =>
    exact ends_of_follows (ends_int (follows_clamp _ _ _ i) g) rfl nofun
  case randomInteger => exact ends_of_follows (follows_randomInteger i g) rfl nofun
  case absoluteInteger =>
    exact ends_of_follows (ends_int ((follows_operand _ _ i _).map _) g) rfl nofun
  case minInteger | maxInteger =>
    exact ends_of_follows (ends_int (follows_pick _ _ i _) g) rfl nofun
  case addFloat | subtractFloat | multiplyFloat =>
    exact ends_of_follows (ends_float ((follows_operands _ _ i).map _) g) rfl nofun
  case divideFloat => exact (ends_floatDivision i g).congr .rfl (fun _ => .rfl) (by simp [InRange])
  case clampFloat => exact ends_of_follows (ends_float (follows_clamp _ _ _ i) g) rfl nofun
  case randomFloat => exact ends_of_follows (follows_randomFloat i g) rfl nofun
  case absoluteFloat | squareRootFloat =>
    exact ends_of_follows (ends_float ((follows_operand _ _ i _).map _) g) rfl nofun
  case minFloat | maxFloat =>
    exact ends_of_follows (ends_float (follows_pick _ _ i _) g) rfl nofun
  case powerFloat =>
    exact ends_of_follows (ends_float ((follows_operandsAt _ _ i _ _).map _) g) rfl nofun
  case floorFloat | ceilFloat | roundFloat | floatToInt =>
    exact ends_of_follows (ends_int ((follows_operand _ _ i _).map _) g) rfl nofun
  case lerpFloat => exact ends_of_follows (follows_interpolate i g) rfl nofun
  case greaterThanInteger | lessThanInteger | equalsInteger | greaterThanFloat | lessThanFloat
      | equalsFloat =>
    exact ends_of_follows (((follows_operands _ _ i).map _).map _) rfl nofun
  case concatString => exact ends_of_follows (follows_concatenate i g) rfl nofun
  case stringLength =>
    exact ends_of_follows (ends_int ((follows_displayed i _).map _) g) rfl nofun
  case toString => exact ends_of_follows (((follows_displayed i _).map _).map _) rfl nofun
  case intToFloat =>
    exact (ends_intToFloat i g).congr ⟨fun h => ⟨h, rfl⟩, And.left⟩ (fun _ => .rfl)
      (by simp [InRange])

/-- Every operation ends with a result, with a warning that carries the fallback of its kind, or
with a fault: an operand that is to be written holds an integer that is too long or has too many
levels, or an integer that is to become a float is out of range. -/
theorem operation_ends {operation : Operation} (h : k.operation? = some operation) (i : Inputs)
    (g : Generator) :
    (k.Usable i → k.Legible i → k.InRange i → ∃ result, operation i g = .ok result) ∧
    (¬k.Usable i → k.Legible i →
      ∃ message, operation i g = .error (.warning message k.fallback)) ∧
    (¬k.Legible i → ∃ v ∈ k.use.written (k.operands i),
      (operation i g = .error (.fault .integerTooLong) ∧ ∃ n, v.Holds n ∧ ¬Decimal.Short n) ∨
      (operation i g = .error (.fault .textTooDeep) ∧ Value.depthLimit < v.depth 1)) ∧
    (k.Usable i → k.Legible i → ¬k.InRange i →
      operation i g = .error (.fault .integerTooLarge)) := by
  have he := ends_operation h i g
  refine ⟨fun hu hl => he.eq_ok hu (legible_iff.mp hl), fun hu hl => ?_, fun hl => ?_,
    fun hu hl => he.eq_tooLarge hu (legible_iff.mp hl)⟩
  · obtain ⟨message, -, hmessage⟩ := he.eq_warning hu (legible_iff.mp hl)
    exact ⟨message, hmessage⟩
  · obtain ⟨f, hf, hfault⟩ := he.eq_fault (mt legible_iff.mpr hl)
    obtain ⟨v, hv⟩ := Classical.not_forall.mp hf
    obtain ⟨hwritten, hv⟩ := Classical.not_imp.mp hv
    refine ⟨v, hwritten, ?_⟩
    rw [hfault]
    obtain ⟨rfl, n, hn, hlong⟩ | ⟨rfl, hdeep⟩ := Value.not_avoids_iff.mp hv
    · exact .inl ⟨rfl, n, hn, hlong⟩
    · exact .inr ⟨rfl, hdeep⟩

namespace Extreme

def vast : Inputs := ⟨[("Value", .int (Int.ofNat (Nat.pow 2 1024)))]⟩

def listed (items : List Value) : Inputs := ⟨[("A", .list items)]⟩

def stranded : Inputs := ⟨[("A", .bool true), ("Alpha", .text "half")]⟩

theorem integers_listed {f : Int → Int → Int} {items : List Value} {fault : Fault}
    (h : shown [.list items, .null] = .error fault) (g : Generator) :
    integers f (listed items) g = .error (.fault fault) := by
  have ha : (listed items).value "A" = .list items := rfl
  have hb : (listed items).value "B" = .null := rfl
  have hboth : both Value.toInteger? (.list items) .null = none := rfl
  have hoperands :
      Operation.operands Value.toInteger? (.int 0) (listed items) = .error (.fault fault) := by
    rw [Operation.operands, operandsAt, ha, hb, hboth, demand, h]
  rw [integers, int, plain, hoperands]
  rfl

/-- An operation can fail without a warning: at a conversion that is out of range, or at the warning
itself. -/
theorem operation_eq_fault :
    (∃ operation, intToFloat.operation? = some operation ∧
      operation vast (.ofSeed 0) = .error (.fault .integerTooLarge)) ∧
    ∃ operation, addInteger.operation? = some operation ∧
      operation (listed [.int (Int.ofNat (Nat.pow 16 3600))]) (.ofSeed 0) =
        .error (.fault .integerTooLong) ∧
      operation (listed [.nest Value.depthLimit]) (.ofSeed 0) = .error (.fault .textTooDeep) := by
  have hlong : shown [.list [.int (Int.ofNat (Nat.pow 16 3600))], .null] = .error .integerTooLong :=
    Except.eq_error_of_error? (by decide +kernel)
  have hdeep : shown [.list [.nest Value.depthLimit], .null] = .error .textTooDeep :=
    Except.eq_error_of_error? (by decide +kernel)
  refine ⟨⟨_, rfl, ?_⟩, ⟨_, rfl, ?_, ?_⟩⟩
  · refine (ends_intToFloat vast _).eq_tooLarge (by decide) (fun _ => nofun) fun h => ?_
    exact absurd (h _ rfl) (by decide +kernel)
  · exact integers_listed hlong _
  · exact integers_listed hdeep _

/-- Without a target nothing moves, but the fraction is read, and named in the warning. -/
theorem operation_ends_stranded :
    lerpFloat.operation? = some interpolate ∧ ¬lerpFloat.Usable stranded ∧
      lerpFloat.Legible stranded ∧
      ∃ message, interpolate stranded (.ofSeed 0) = .error (.warning message (.float 0)) := by
  have husable : ¬lerpFloat.Usable stranded := fun h => absurd h.1 (by decide +kernel)
  have hlegible : lerpFloat.Legible stranded := by
    intro v hv
    have hmem : v ∈ [.bool true, .null, .text "half"] := Use.mem_of_mem_written hv
    simp only [List.mem_cons, List.not_mem_nil, or_false] at hmem
    obtain rfl | rfl | rfl := hmem <;> exact Value.writable_of_isScalar rfl
  exact ⟨rfl, husable, hlegible,
    (operation_ends (k := lerpFloat) rfl stranded (.ofSeed 0)).2.1 husable hlegible⟩

end Extreme

end NodeKind

end NodeScript
