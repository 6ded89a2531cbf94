import NodeScript.Graph.Document
import NodeScript.Proofs.Except
import NodeScript.Proofs.Texts

/-!
Which documents can be read. Reading ends in a graph, in the refusal of a malformed document, or in
a fault; a fault means that the document holds an integer that is too long for a text or too large
for a coordinate, or a value with too many levels for a text.
-/

namespace NodeScript

def LoadError.isFault : LoadError → Bool
  | .fault _ => true
  | _ => false

/-- What the outcome of reading tells about a document: it is legible and well formed if there is a
result, it is not legible as far as the fault goes if there is a fault, and it is not well formed if
it is refused. -/
def Judged {α : Type} (legible : Fault → Prop) (wellFormed : Prop) : Except LoadError α → Prop
  | .ok _ => (∀ f, legible f) ∧ wellFormed
  | .error (.fault f) => ¬legible f
  | .error _ => ¬wellFormed

namespace Judged

variable {α β : Type} {p p' : Fault → Prop} {q q' : Prop} {e : Except LoadError α}

theorem of_writtenIf {e : Except Fault α} (h : WrittenIf p e) :
    Judged p True (e.mapError LoadError.fault) := by
  cases e with
  | ok x => exact ⟨h.ok x rfl, trivial⟩
  | error f => exact h.error f rfl

theorem congr (h : Judged p q e) (hp : ∀ f, p f ↔ p' f) (hq : q ↔ q') : Judged p' q' e := by
  rw [← funext fun f => propext (hp f), ← propext hq]
  exact h

theorem of_fault {f : Fault} (h : Judged p q e) (he : e = .error (.fault f)) : ¬p f := by
  subst he
  exact h

theorem of_refusal {r : LoadError} (h : Judged p q e) (he : e = .error r) (hr : r.isFault = false) :
    ¬q := by
  subst he
  cases r with
  | fault f => cases hr
  | _ => exact h

theorem bind {f : α → Except LoadError β} (h : Judged p q e)
    (hf : ∀ x, e = .ok x → Judged p' q' (f x)) :
    Judged (fun f => p f ∧ p' f) (q ∧ q') (e >>= f) := by
  cases e with
  | ok x =>
    obtain ⟨hp, hq⟩ := h
    exact (hf x rfl).congr (fun f => (and_iff_right (hp f)).symm) (and_iff_right hq).symm
  | error r =>
    cases r with
    | fault f => exact fun hp => h hp.1
    | _ => exact fun hq => h hq.1

theorem map (h : Judged p q e) (f : α → β) : Judged p q (e.map f) := by
  cases e with
  | ok x => exact h
  | error r => cases r <;> exact h

theorem bind_pure (h : Judged p q e) (f : α → β) : Judged p q (e >>= fun x => pure (f x)) :=
  h.map f

theorem guard {c d : Prop} [Decidable c] {x : α} (hcd : c ↔ ¬d) (h : d → Judged p q e) :
    Judged (fun f => d → p f) (d → q) (if c then .ok x else e) := by
  by_cases hc : c
  · rw [if_pos hc]
    exact ⟨fun _ hd => absurd hd (hcd.mp hc), fun hd => absurd hd (hcd.mp hc)⟩
  · have hd : d := Classical.byContradiction fun hd => hc (hcd.mpr hd)
    rw [if_neg hc]
    exact (h hd).congr (fun f => (imp_iff_right hd).symm) (imp_iff_right hd).symm

theorem require {c d : Prop} [Decidable c] {error : LoadError} (he : error.isFault = false)
    (hcd : c ↔ ¬d) (h : Judged p q e) :
    Judged (fun f => True ∧ p f) (d ∧ q) (if c then .error error else e) := by
  by_cases hc : c
  · rw [if_pos hc]
    cases error with
    | fault f => cases he
    | _ => exact fun hd => hcd.mp hc hd.1
  · have hd : d := Classical.byContradiction fun hd => hc (hcd.mpr hd)
    rw [if_neg hc]
    exact h.congr (fun f => (and_iff_right trivial).symm) (and_iff_right hd).symm

end Judged

namespace Tag

/-- Nothing in the value leads to this fault when it is read as a tag. -/
def Legible (v : Value) (f : Fault) : Prop :=
  (∃ s, v.field? "value" = some (.text s)) ∨ (∃ s, v.field? "value" = some (.symbol s)) ∨
    v.Avoids .text Value.depthLimit f

def named? (α : Type) [Vocabulary α] (default? : Option α) (tag : Tag) : Option α :=
  if tag.text = "" then default? else member? α tag.text

/-- The value names a member, or nothing if there is a default. -/
def Known (α : Type) [Vocabulary α] (default? : Option α) (v : Value) : Prop :=
  ∀ tag, ofValue v = .ok tag → (named? α default? tag).isSome

theorem writtenIf_ofValue (v : Value) : WrittenIf (Legible v) (ofValue v) := by
  unfold ofValue
  split
  · exact .of_ok (fun f => .inr (.inr (Value.writable_of_isScalar rfl f))) _
  · exact .of_ok (fun f => .inr (.inr (Value.writable_of_isScalar rfl f))) _
  · split
    · exact .of_ok (fun _ => .inl ⟨_, ‹_›⟩) _
    · exact .of_ok (fun _ => .inr (.inl ⟨_, ‹_›⟩)) _
    · rename_i htext hsymbol
      refine (v.writtenIf_plainOrEmpty.map ofText).congr fun f => ⟨fun h => .inr (.inr h), ?_⟩
      rintro (⟨s, hs⟩ | ⟨s, hs⟩ | h)
      · exact absurd hs (htext s)
      · exact absurd hs (hsymbol s)
      · exact h

theorem judged_resolve {α : Type} [Vocabulary α] (default? : Option α) (v : Value) :
    Judged (Legible v) (Known α default? v) (resolve α default? v) := by
  have h := Judged.of_writtenIf (writtenIf_ofValue v)
  refine (h.bind fun tag htag => ?_).congr (fun f => and_iff_left trivial) (and_iff_right trivial)
  have hknown : Known α default? v ↔ (named? α default? tag).isSome := by
    have hv : ofValue v = .ok tag := Except.eq_ok_of_mapError htag
    constructor
    · exact fun hk => hk tag hv
    · intro hk t ht
      cases hv.symm.trans ht
      exact hk
  refine Judged.congr (p := fun _ => True) ?_ (fun _ => Iff.rfl) hknown.symm
  unfold named?
  by_cases he : tag.text = ""
  · rw [if_pos he, if_pos he]
    cases default? with
    | some m => exact ⟨fun _ => trivial, rfl⟩
    | none => exact nofun
  · rw [if_neg he, if_neg he]
    cases member? α tag.text with
    | some m => exact ⟨fun _ => trivial, rfl⟩
    | none => exact nofun

end Tag

namespace Document

/-- A condition on documents, given by what it asks of the values in them. -/
structure Standard where
  text : Value → Prop
  tag : (α : Type) → [Vocabulary α] → Option α → Value → Prop
  coordinate : Value → Prop
  shape : Prop → Prop

namespace Standard

variable (s : Standard)

-- What is no object is skipped, and so is an object without an identifier, whatever else it holds.
def AdmitsPin (side : Direction) (v : Value) : Prop :=
  isObject v → s.text (field v "id") ∧ (idOf (field v "id") ≠ .ok "" →
    s.text (first v ["nodeId", "node_id"]) ∧
    s.text (field v "label") ∧
    s.tag DataType (some .any) (first v ["dataType", "data_type"]) ∧
    s.tag Direction (some side) (field v "direction"))

def AdmitsPins (side : Direction) (v : Value) : Prop :=
  ∀ items, v = .list items → ∀ p ∈ items, s.AdmitsPin side p

def AdmitsNode (v : Value) : Prop :=
  isObject v → s.text (field v "id") ∧ (idOf (field v "id") ≠ .ok "" →
    s.tag NodeKind none (first v ["type", "kind"]) ∧
    s.AdmitsPins .input (field v "inputs") ∧
    s.AdmitsPins .output (field v "outputs") ∧
    s.text (field v "title") ∧
    s.text (field v "comment") ∧
    s.coordinate (field v "x") ∧
    s.coordinate (field v "y"))

def AdmitsWire (v : Value) : Prop :=
  isObject v →
    s.text (first v ["fromNodeId", "from_node_id"]) ∧
    s.text (first v ["fromPinId", "from_pin_id"]) ∧
    s.text (first v ["toNodeId", "to_node_id"]) ∧
    s.text (first v ["toPinId", "to_pin_id"]) ∧
    (idOf (first v ["fromNodeId", "from_node_id"]) ≠ .ok "" ∧
      idOf (first v ["fromPinId", "from_pin_id"]) ≠ .ok "" ∧
      idOf (first v ["toNodeId", "to_node_id"]) ≠ .ok "" ∧
      idOf (first v ["toPinId", "to_pin_id"]) ≠ .ok "" →
      s.text (field v "id") ∧
      s.tag DataType (some .any) (first v ["dataType", "data_type"]))

def Admits (v : Value) : Prop :=
  let nodes := field v "nodes"
  let wires := (v.field? "wires").getD (field v "edges")
  s.shape (isObject v) ∧
  s.shape (nodes = .null ∨ ∃ items, nodes = .list items) ∧
  s.shape (wires = .null ∨ ∃ items, wires = .list items) ∧
  (∀ items, nodes = .list items → ∀ n ∈ items, s.AdmitsNode n) ∧
  (∀ items, wires = .list items → ∀ w ∈ items, s.AdmitsWire w)

theorem admits_of_forall {s : Standard} (htext : ∀ v, s.text v)
    (htag : ∀ (α : Type) [Vocabulary α] (default? : Option α) v, s.tag α default? v)
    (hcoordinate : ∀ v, s.coordinate v) (hshape : ∀ p, s.shape p) (v : Value) : s.Admits v := by
  have hpin (side : Direction) (w : Value) : s.AdmitsPin side w :=
    fun _ => ⟨htext _, fun _ => ⟨htext _, htext _, htag _ _ _, htag _ _ _⟩⟩
  have hpins (side : Direction) (w : Value) : s.AdmitsPins side w := fun _ _ p _ => hpin side p
  refine ⟨hshape _, hshape _, hshape _, fun _ _ n _ _ => ⟨htext _, fun _ => ?_⟩, ?_⟩
  · exact ⟨htag _ _ _, hpins _ _, hpins _ _, htext _, htext _, hcoordinate _, hcoordinate _⟩
  · exact fun _ _ w _ _ => ⟨htext _, htext _, htext _, htext _, fun _ => ⟨htext _, htag _ _ _⟩⟩

end Standard

/-- Nothing in the document leads to this fault: where something is read as a text, its integers are
short and its levels are not too many, and an integer that is read as a coordinate is in the range
of floats. -/
def legible (f : Fault) : Standard where
  text v := v.Avoids .text Value.depthLimit f
  tag _ _ _ v := Tag.Legible v f
  coordinate v := f = .integerTooLarge → ∀ n, v = .int n → (Binary64.ofInt? n).isSome
  shape _ := True

def Legible (v : Value) : Prop := ∀ f, (legible f).Admits v

theorem fault_of_not_legible {f : Fault} {v : Value} (h : ¬(legible f).Admits v) :
    f = .integerTooLong ∨ f = .integerTooLarge ∨ f = .textTooDeep := by
  refine Classical.byContradiction fun hf => h ?_
  simp only [not_or] at hf
  have htext (w : Value) : w.Avoids .text Value.depthLimit f :=
    ⟨fun hl => absurd hl hf.1, fun hd => absurd hd hf.2.2⟩
  exact Standard.admits_of_forall htext (fun _ _ _ w => Or.inr (Or.inr (htext w)))
    (fun _ hl => absurd hl hf.2.1) (fun _ => trivial) v

/-- Objects and lists stand where they are asked for, and every tag names a member. -/
def wellFormed : Standard where
  text _ := True
  tag α _ default? v := Tag.Known α default? v
  coordinate _ := True
  shape p := p

theorem judged_textOf (v : Value) : Judged (v.Avoids .text Value.depthLimit) True (textOf v) :=
  .of_writtenIf v.writtenIf_plainOrEmpty

theorem judged_idOf (v : Value) : Judged (v.Avoids .text Value.depthLimit) True (idOf v) :=
  (judged_textOf v).map Text.strip

theorem judged_labelOf (v : Value) :
    Judged (v.Avoids .text Value.depthLimit) True (labelOf v) := by
  have hplain (w : Value) :
      Judged (w.Avoids .text Value.depthLimit) True (w.plain.mapError LoadError.fault) :=
    .of_writtenIf w.writtenIf_plain
  cases v with
  | null => exact ⟨Value.writable_of_isScalar rfl, trivial⟩
  | _ => exact hplain _

theorem requireFloat_eq_integerTooLarge_iff (v : Value) :
    v.requireFloat = .error .integerTooLarge ↔ ∃ n, v = .int n ∧ Binary64.ofInt? n = none := by
  cases v with
  | int n =>
    cases hn : Binary64.ofInt? n <;> simp [Value.requireFloat, Value.requireFloat.ofInt, hn]
  | bool b => cases b <;> exact ⟨nofun, nofun⟩
  | text t =>
    cases ht : Decimal.readFloat t <;>
      simp [Value.requireFloat, Value.requireFloat.readCoordinate, ht]
  | symbol t =>
    cases ht : Decimal.readFloat t.value <;>
      simp [Value.requireFloat, Value.requireFloat.readCoordinate, ht]
  | _ => exact ⟨nofun, nofun⟩

theorem judged_coordinate (v : Value) :
    Judged (fun f => (legible f).coordinate v) True (coordinate v) := by
  have hlegible (f : Fault) : (f = .integerTooLarge → v.requireFloat ≠ .error .integerTooLarge) ↔
      (legible f).coordinate v := by
    refine imp_congr_right fun _ => ?_
    rw [ne_eq, requireFloat_eq_integerTooLarge_iff]
    constructor
    · intro h n hn
      exact Option.isSome_iff_ne_none.mpr fun hnone => h ⟨n, hn, hnone⟩
    · rintro h ⟨n, hn, hnone⟩
      exact Option.isSome_iff_ne_none.mp (h n hn) hnone
  refine Judged.congr ?_ hlegible Iff.rfl
  unfold coordinate
  cases v.requireFloat with
  | ok x => exact ⟨fun _ _ => nofun, trivial⟩
  | error f =>
    cases f with
    | integerTooLarge => exact fun h => h rfl rfl
    | _ => exact ⟨fun _ _ => nofun, trivial⟩

theorem judged_collect {α β : Type} {p : α → Fault → Prop} {q : α → Prop}
    {read : α → Except LoadError (Option β)} (h : ∀ a, Judged (p a) (q a) (read a)) (as : List α) :
    Judged (fun f => ∀ a ∈ as, p a f) (∀ a ∈ as, q a) (collect read as) := by
  induction as with
  | nil => exact ⟨fun _ => nofun, nofun⟩
  | cons a as ih =>
    refine ((h a).bind fun b _ => ih.bind_pure (b.toList ++ ·)).congr (fun f => ?_) ?_
    · rw [List.forall_mem_cons]
    · rw [List.forall_mem_cons]

theorem judged_readPin (nodeId : Text) (side : Direction) (v : Value) :
    Judged (fun f => (legible f).AdmitsPin side v) (wellFormed.AdmitsPin side v)
      (readPin nodeId side v) := by
  refine Judged.guard (by simp) fun _ => ?_
  refine (judged_idOf _).bind fun id hid => ?_
  refine Judged.guard (by simp [hid]) fun _ => ?_
  refine (judged_textOf _).bind fun owner _ => ?_
  refine (judged_labelOf _).bind fun label _ => ?_
  refine (Tag.judged_resolve _ _).bind fun type _ => ?_
  exact (Tag.judged_resolve _ _).bind_pure _

theorem judged_readPins (nodeId : Text) (side : Direction) (v : Value) :
    Judged (fun f => (legible f).AdmitsPins side v) (wellFormed.AdmitsPins side v)
      (readPins nodeId side v) := by
  cases v with
  | list items =>
    refine (judged_collect (judged_readPin nodeId side) items).congr (fun f => ?_) ?_
    · simp [Standard.AdmitsPins]
    · simp [Standard.AdmitsPins]
  | _ => exact ⟨fun _ => nofun, nofun⟩

theorem judged_readNode (v : Value) :
    Judged (fun f => (legible f).AdmitsNode v) (wellFormed.AdmitsNode v) (readNode v) := by
  refine Judged.guard (by simp) fun _ => ?_
  refine (judged_idOf _).bind fun id hid => ?_
  refine Judged.guard (by simp [hid]) fun _ => ?_
  refine (Tag.judged_resolve _ _).bind fun kind _ => ?_
  refine (judged_readPins _ _ _).bind fun inputs _ => ?_
  refine (judged_readPins _ _ _).bind fun outputs _ => ?_
  refine (judged_textOf _).bind fun title _ => ?_
  refine (judged_textOf _).bind fun comment _ => ?_
  refine (judged_coordinate _).bind fun x _ => ?_
  exact (judged_coordinate _).bind_pure _

theorem judged_readWire (v : Value) (position : Nat) :
    Judged (fun f => (legible f).AdmitsWire v) (wellFormed.AdmitsWire v)
      (readWire (v, position)) := by
  refine Judged.guard (by simp) fun _ => ?_
  refine (judged_idOf _).bind fun fromNode hfromNode => ?_
  refine (judged_idOf _).bind fun fromPin hfromPin => ?_
  refine (judged_idOf _).bind fun toNode htoNode => ?_
  refine (judged_idOf _).bind fun toPin htoPin => ?_
  refine Judged.guard (by rw [hfromNode, hfromPin, htoNode, htoPin]; grind) fun _ => ?_
  refine (judged_textOf _).bind fun id _ => ?_
  exact (Tag.judged_resolve _ _).bind_pure _

theorem listOr_eq_ok {error : LoadError} {v : Value} {items : List Value}
    (h : listOr error v = .ok items) : (v = .null ∧ items = []) ∨ v = .list items := by
  cases v with
  | null => exact .inl ⟨rfl, (Except.ok.inj h).symm⟩
  | list vs => exact .inr (congrArg Value.list (Except.ok.inj h))
  | _ => cases h

theorem judged_listOr {error : LoadError} (he : error.isFault = false) (v : Value) :
    Judged (fun _ => True) (v = .null ∨ ∃ items, v = .list items) (listOr error v) := by
  cases v with
  | null => exact ⟨fun _ => trivial, .inl rfl⟩
  | list items => exact ⟨fun _ => trivial, .inr ⟨items, rfl⟩⟩
  | _ =>
    cases error with
    | fault f => cases he
    | _ => exact nofun

theorem forall_items_iff {error : LoadError} {v : Value} {items : List Value}
    (h : listOr error v = .ok items) (p : Value → Prop) :
    (∀ a ∈ items, p a) ↔ ∀ vs, v = .list vs → ∀ a ∈ vs, p a := by
  obtain ⟨rfl, rfl⟩ | rfl := listOr_eq_ok h
  · simp
  · simp

theorem judged_read (v : Value) :
    Judged (fun f => (legible f).Admits v) (wellFormed.Admits v) (read v) := by
  refine Judged.require rfl (by simp [wellFormed]) ?_
  refine (judged_listOr rfl _).bind fun nodeItems hnodes => ?_
  refine (judged_listOr rfl _).bind fun wireItems hwires => ?_
  refine Judged.congr ?_
    (fun f => and_congr (forall_items_iff hnodes _) (forall_items_iff hwires _))
    (and_congr (forall_items_iff hnodes _) (forall_items_iff hwires _))
  refine (judged_collect judged_readNode nodeItems).bind fun nodes _ => ?_
  refine Judged.bind_pure ?_ _
  refine (judged_collect (fun w => judged_readWire w.1 w.2) wireItems.zipIdx).congr (fun f => ?_) ?_
  · rw [← List.forall_mem_map (f := Prod.fst), List.zipIdx_map_fst]
  · rw [← List.forall_mem_map (f := Prod.fst), List.zipIdx_map_fst]

theorem not_legible_of_read {v : Value} {f : Fault} (h : read v = .error (.fault f)) :
    ¬(legible f).Admits v := (judged_read v).of_fault h

theorem not_wellFormed_of_read {v : Value} {e : LoadError} (h : read v = .error e)
    (he : e.isFault = false) : ¬wellFormed.Admits v := (judged_read v).of_refusal h he

/-- A document is read to a graph or refused as malformed, unless something in it cannot be written
or is no float, and that is found before the document is refused. A fault is always one of three,
and always one that the document has. -/
theorem read_outcome (v : Value) :
    (Legible v → wellFormed.Admits v → ∃ g, read v = .ok g) ∧
    (Legible v → ¬wellFormed.Admits v → ∃ e, read v = .error e ∧ e.isFault = false) ∧
    (¬Legible v → wellFormed.Admits v →
      ∃ f, read v = .error (.fault f) ∧ ¬(legible f).Admits v) ∧
    (¬Legible v → ¬wellFormed.Admits v → ∃ e, read v = .error e ∧
      (e.isFault = false ∨ ∃ f, e = .fault f ∧ ¬(legible f).Admits v)) ∧
    ∀ f, ¬(legible f).Admits v →
      f = .integerTooLong ∨ f = .integerTooLarge ∨ f = .textTooDeep := by
  have h := judged_read v
  have hfaults (f : Fault) (hf : ¬(legible f).Admits v) := fault_of_not_legible hf
  cases hr : read v with
  | ok g =>
    rw [hr] at h
    obtain ⟨hl, hw⟩ := h
    exact ⟨fun _ _ => ⟨g, rfl⟩, fun _ hn => absurd hw hn, fun hn => absurd hl hn,
      fun hn => absurd hl hn, hfaults⟩
  | error e =>
    rw [hr] at h
    cases e with
    | fault f =>
      exact ⟨fun hl => absurd (hl f) h, fun hl => absurd (hl f) h, fun _ _ => ⟨f, rfl, h⟩,
        fun _ _ => ⟨_, rfl, .inr ⟨f, rfl, h⟩⟩, hfaults⟩
    | _ =>
      exact ⟨fun _ hn => absurd hn h, fun _ _ => ⟨_, rfl, rfl⟩, fun _ hn => absurd hn h,
        fun _ _ => ⟨_, rfl, .inl rfl⟩, hfaults⟩

namespace Oversized

def untyped : Value := .record
  [("nodes", .list [.record
    [("id", .text "print"), ("type", .text " "), ("inputs", .list [.null]), ("x", .int 40)]])]

def far : Value := .record
  [("nodes", .list [.record
    [("id", .text "a"), ("type", .text "beginplay"), ("x", .int (Int.ofNat (Nat.pow 2 1024)))]])]

def overlong : Value := .record
  [("nodes", .list [.record [("id", .int (Int.ofNat (Nat.pow 16 3600)))]])]

def deep : Value := .record [("nodes", .list [.record [("id", .nest Value.depthLimit)]])]

theorem read_far : read far = .error (.fault .integerTooLarge) :=
  Except.eq_error_of_error? (by decide +kernel)

theorem read_overlong : read overlong = .error (.fault .integerTooLong) :=
  Except.eq_error_of_error? (by decide +kernel)

theorem read_deep : read deep = .error (.fault .textTooDeep) :=
  Except.eq_error_of_error? (by decide +kernel)

theorem read_untyped : read untyped = .error (.missingTag "NodeKind") :=
  Except.eq_error_of_error? (by decide +kernel)

/-- A coordinate or an identifier can keep a document from being read, without its being refused. -/
theorem read_eq_fault :
    read far = .error (.fault .integerTooLarge) ∧
      read overlong = .error (.fault .integerTooLong) ∧
      read deep = .error (.fault .textTooDeep) :=
  ⟨read_far, read_overlong, read_deep⟩

theorem legible_untyped : Legible untyped := by
  intro f
  have hscalar {v : Value} (hv : v.isScalar) : v.Avoids .text Value.depthLimit f :=
    Value.writable_of_isScalar hv f
  refine ⟨trivial, trivial, trivial, fun items h n hn => ?_, nofun⟩
  cases h
  cases List.mem_singleton.mp hn
  refine fun _ => ⟨hscalar rfl, fun _ => ⟨.inr (.inr (hscalar rfl)), ?_, nofun, hscalar rfl,
    hscalar rfl, ?_, fun _ => nofun⟩⟩
  · rintro items h p hp
    cases h
    cases List.mem_singleton.mp hp
    exact nofun
  · rintro - n h
    cases h
    decide +kernel

theorem wellFormed_far : wellFormed.Admits far := by
  refine ⟨rfl, .inr ⟨_, rfl⟩, .inl rfl, fun items h n hn => ?_, nofun⟩
  cases h
  cases List.mem_singleton.mp hn
  refine fun _ => ⟨trivial, fun _ =>
    ⟨fun tag htag => ?_, nofun, nofun, trivial, trivial, trivial, trivial⟩⟩
  rw [← Except.ok.inj htag]
  decide +kernel

theorem read_outcome_untyped_far :
    (Legible untyped ∧ ¬wellFormed.Admits untyped ∧
      ∃ e, read untyped = .error e ∧ e.isFault = false) ∧
    ¬Legible far ∧ wellFormed.Admits far ∧
      ∃ f, read far = .error (.fault f) ∧ ¬(legible f).Admits far := by
  have huntyped := not_wellFormed_of_read read_untyped rfl
  have hfar : ¬Legible far := fun h => not_legible_of_read read_far (h _)
  exact ⟨⟨legible_untyped, huntyped, (read_outcome untyped).2.1 legible_untyped huntyped⟩,
    hfar, wellFormed_far, (read_outcome far).2.2.1 hfar wellFormed_far⟩

end Oversized

end Document

end NodeScript
