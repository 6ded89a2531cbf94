import NodeScript.Proofs.Indexing
import NodeScript.Proofs.MapRelation
import NodeScript.Proofs.Skipping

namespace NodeScript

/-- The wire under its own name, or under the name of its place in the list if it has none. -/
def Wire.placed (w : Wire) (position : Nat) : Wire :=
  if w.id = "" then { w with id := s!"wire-{position}" } else w

@[simp]
theorem Wire.source_placed (w : Wire) (position : Nat) : (w.placed position).source = w.source := by
  unfold placed
  split <;> rfl

@[simp]
theorem Wire.target_placed (w : Wire) (position : Nat) : (w.placed position).target = w.target := by
  unfold placed
  split <;> rfl

namespace Document

/-- What is read from an entry at all places of the list: nothing, an error, or a wire whose name
alone may depend on the place. -/
inductive ReadAnywhere (v : Value) (read : Nat → Except LoadError (Option Wire)) : Prop
  | skipped (h : ∀ i, read i = .ok none)
  | refused (e : LoadError) (h : ∀ i, read i = .error e)
  | wire (w : Wire) (hid : textOf (field v "id") = .ok w.id)
      (h : ∀ i, read i = .ok (some (w.placed i)))

theorem ReadAnywhere.bind {α : Type} {v : Value} {e : Except LoadError α}
    {f : α → Nat → Except LoadError (Option Wire)}
    (h : ∀ a, e = .ok a → ReadAnywhere v (f a)) : ReadAnywhere v fun i => e >>= fun a => f a i := by
  cases e with
  | error e => exact .refused e fun _ => rfl
  | ok a => exact h a rfl

theorem readAnywhere_readWire (v : Value) : ReadAnywhere v fun i => readWire (v, i) := by
  cases hobject : isObject v with
  | false => exact .skipped fun i => (readWire_eq_none_iff v i).mpr (.inl hobject)
  | true =>
    simp only [readWire, hobject, Bool.not_true, Bool.false_eq_true, if_false]
    refine .bind fun fromNode _ => .bind fun fromPin _ => .bind fun toNode _ =>
      .bind fun toPin _ => ?_
    split
    · exact .skipped fun _ => rfl
    refine .bind fun id hid => .bind fun type _ => ?_
    refine .wire { id, fromNode, fromPin, toNode, toPin, type } hid fun i => ?_
    unfold Wire.placed
    split
    · rfl
    · rfl

/-- The second list is the first one with void items put between its items. -/
inductive Padded {α : Type} (void : α → Prop) (same : α → α → Prop) : List α → List α → Prop
  | nil : Padded void same [] []
  | kept {a a' : α} {as as' : List α} (h : same a a') (hs : Padded void same as as') :
      Padded void same (a :: as) (a' :: as')
  | added {a' : α} {as as' : List α} (h : void a') (hs : Padded void same as as') :
      Padded void same as (a' :: as')

inductive PaddedList (void : Value → Prop) (same : Value → Value → Prop) : Value → Value → Prop
  | list {items items' : List Value} (h : Padded void same items items') :
      PaddedList void same (.list items) (.list items')
  | other {v : Value} (h : ∀ items, v ≠ .list items) : PaddedList void same v v

/-- The values of two objects correspond field by field, as told for each key. -/
inductive PaddedFields (pad : Text → Value → Value → Prop) : Value → Value → Prop
  | object {es es' : List (Text × Value)}
      (h : List.Forall₂ (fun e e' => e'.1 = e.1 ∧ pad e.1 e.2 e'.2) es es') :
      PaddedFields pad (.record es) (.record es')
  | other {v : Value} (h : isObject v = false) : PaddedFields pad v v

def pinKeys : List Text := ["inputs", "outputs"]

def padPins (key : Text) : Value → Value → Prop :=
  if key ∈ pinKeys then PaddedList VoidEntry Eq else Eq

def PaddedNode : Value → Value → Prop := PaddedFields padPins

def wireKeys : List Text := ["wires", "edges"]

def padItems (key : Text) : Value → Value → Prop :=
  if key = "nodes" then PaddedList VoidEntry PaddedNode
  else if key ∈ wireKeys then PaddedList VoidWire Eq
  else Eq

def PaddedDocument : Value → Value → Prop := PaddedFields padItems

theorem collect_padded {α β : Type} {void : α → Prop} {same : α → α → Prop} {as as' : List α}
    {read : α → Except LoadError (Option β)} (hvoid : ∀ a, void a → read a = .ok none)
    (hsame : ∀ a a', same a a' → read a' = read a) (h : Padded void same as as') :
    collect read as' = collect read as := by
  induction h with
  | nil => rfl
  | kept h _ ih => rw [collect, collect, hsame _ _ h, ih]
  | @added a' as as' h _ ih =>
    rw [collect, hvoid a' h, ih]
    cases collect read as <;> rfl

namespace PaddedFields

variable {pad : Text → Value → Value → Prop} {v v' : Value}

theorem isObject_eq (h : PaddedFields pad v v') : isObject v' = isObject v := by
  cases h <;> rfl

theorem rel_field? (h : PaddedFields pad v v') (key : Text) :
    Option.Rel (pad key) (v.field? key) (v'.field? key) := by
  cases h with
  | object h =>
    rename_i es es'
    have hfound : Option.Rel (fun e e' => pad key e.2 e'.2) (es.find? (·.1 = key))
        (es'.find? (·.1 = key)) := by
      refine rel_imp (rel_find? (fun e e' he => by rw [he.1]) h) fun e e' he _ hpad => ?_
      have hkey : e.1 = key := by simpa using List.find?_some he
      exact hkey ▸ hpad.2
    simp only [Value.field?]
    generalize es.find? _ = o at hfound ⊢
    generalize es'.find? _ = o' at hfound ⊢
    cases hfound with
    | none => exact .none
    | some h => exact .some h
  | other h =>
    cases v with
    | record es => cases h
    | _ => exact .none

theorem list (h : PaddedFields pad v v') {void : Value → Prop} {same : Value → Value → Prop}
    {key : Text} (hkey : pad key = PaddedList void same) :
    PaddedList void same (field v key) (field v' key) := by
  have hfield := h.rel_field? key
  rw [hkey] at hfield
  exact rel_getD hfield (.other nofun)

theorem field?_eq (h : PaddedFields pad v v') {key : Text} (hkey : pad key = Eq) :
    v'.field? key = v.field? key := by
  have hfield := h.rel_field? key
  rw [hkey] at hfield
  generalize v.field? key = o at hfield ⊢
  generalize v'.field? key = o' at hfield ⊢
  cases hfield with
  | none => rfl
  | some h => rw [h]

theorem field_eq (h : PaddedFields pad v v') {key : Text} (hkey : pad key = Eq) :
    field v' key = field v key := by
  rw [field, field, h.field?_eq hkey]

theorem first_eq (h : PaddedFields pad v v') {keys : List Text}
    (hkeys : ∀ key ∈ keys, pad key = Eq) : first v' keys = first v keys := by
  induction keys with
  | nil => rfl
  | cons key keys ih =>
    rw [List.forall_mem_cons] at hkeys
    rw [first, first, h.field?_eq hkeys.1, ih hkeys.2]

end PaddedFields

theorem readPins_padded {v v' : Value} (h : PaddedList VoidEntry Eq v v') (nodeId : Text)
    (side : Direction) : readPins nodeId side v' = readPins nodeId side v := by
  cases h with
  | list h =>
    refine collect_padded (fun a ha => (readPin_eq_none_iff nodeId side a).mpr ha) ?_ h
    rintro a _ rfl
    rfl
  | other => rfl

theorem readNode_padded {v v' : Value} (h : PaddedNode v v') : readNode v' = readNode v := by
  have hpins (key : Text) (hkey : key ∈ pinKeys) :
      PaddedList VoidEntry Eq (field v key) (field v' key) :=
    h.list (if_pos hkey)
  have hother (key : Text) (hkey : key ∉ pinKeys) : field v' key = field v key :=
    h.field_eq (if_neg hkey)
  have hkind : first v' ["type", "kind"] = first v ["type", "kind"] :=
    h.first_eq fun key hkey => if_neg (by revert key; decide)
  unfold readNode
  simp only [h.isObject_eq, hkind, hother "id" (by decide), hother "properties" (by decide),
    hother "title" (by decide), hother "comment" (by decide), hother "x" (by decide),
    hother "y" (by decide), readPins_padded (hpins "inputs" (by decide)),
    readPins_padded (hpins "outputs" (by decide))]

structure Declared where
  wire : Wire
  old : Nat
  new : Nat

namespace Declared

def before (d : Declared) : Wire := d.wire.placed d.old

def after (d : Declared) : Wire := d.wire.placed d.new

/-- The wires are declared by entries of both documents, in the same order. -/
structure Places (entries entries' : List (Value × Nat)) (declared : List Declared) : Prop where
  entry : ∀ d ∈ declared, ∃ v, (v, d.old) ∈ entries ∧ (v, d.new) ∈ entries' ∧
    textOf (field v "id") = .ok d.wire.id
  order : declared.Pairwise fun d e => d.old < e.old ∧ d.new < e.new

variable {entries entries' : List (Value × Nat)} {items items' : List Value} {n n' : Nat}
  {declared : List Declared}

theorem Places.mono {more more' : List (Value × Nat)} (h : Places entries entries' declared)
    (hmore : entries ⊆ more) (hmore' : entries' ⊆ more') : Places more more' declared where
  entry d hd := by
    obtain ⟨v, hold, hnew, hid⟩ := h.entry d hd
    exact ⟨v, hmore hold, hmore' hnew, hid⟩
  order := h.order

theorem Places.cons {v : Value} {w : Wire} (hid : textOf (field v "id") = .ok w.id)
    (h : Places (items.zipIdx (n + 1)) (items'.zipIdx (n' + 1)) declared) :
    Places ((v :: items).zipIdx n) ((v :: items').zipIdx n') (⟨w, n, n'⟩ :: declared) where
  entry := by
    refine List.forall_mem_cons.mpr ⟨⟨v, List.mem_cons_self, List.mem_cons_self, hid⟩, ?_⟩
    exact (h.mono (List.subset_cons_self _ _) (List.subset_cons_self _ _)).entry
  order := by
    refine List.pairwise_cons.mpr ⟨fun d hd => ?_, h.order⟩
    obtain ⟨v, hold, hnew, -⟩ := h.entry d hd
    exact ⟨(List.mem_zipIdx hold).1, (List.mem_zipIdx hnew).1⟩

end Declared

open Declared

/-- Wires keep their order, and those without a name of their own are called after their new
places. -/
theorem collect_wires_padded {items items' : List Value} (h : Padded VoidWire Eq items items')
    {n : Nat} (n' : Nat) {wires : List Wire}
    (hread : collect readWire (items.zipIdx n) = .ok wires) :
    ∃ declared : List Declared, wires = declared.map before ∧
      collect readWire (items'.zipIdx n') = .ok (declared.map after) ∧
      Places (items.zipIdx n) (items'.zipIdx n') declared := by
  -- Each list is counted on its own, since an added entry moves the second count only.
  induction h generalizing n n' wires with
  | nil =>
    cases hread
    exact ⟨[], rfl, rfl, nofun, .nil⟩
  | @added v items items' hv _ ih =>
    obtain ⟨declared, hwires, hread', hplaces⟩ := ih (n' + 1) hread
    refine ⟨declared, hwires, ?_, hplaces.mono (List.Subset.refl _) (List.subset_cons_self _ _)⟩
    rw [List.zipIdx_cons, collect, (readWire_eq_none_iff v n').mpr hv, hread']
    rfl
  | @kept v _ items items' hv _ ih =>
    subst hv
    rw [List.zipIdx_cons, collect] at hread
    obtain ⟨first, hfirst, hread⟩ := Except.exists_of_bind_eq_ok hread
    obtain ⟨others, hothers, hread⟩ := Except.exists_of_bind_eq_ok hread
    cases hread
    obtain ⟨declared, rfl, hread', hplaces⟩ := ih (n' + 1) hothers
    rw [List.zipIdx_cons, collect, hread']
    cases readAnywhere_readWire v with
    | skipped h =>
      cases (h n).symm.trans hfirst
      rw [h n']
      exact ⟨declared, rfl, rfl,
        hplaces.mono (List.subset_cons_self _ _) (List.subset_cons_self _ _)⟩
    | refused e h => cases (h n).symm.trans hfirst
    | wire w hid h =>
      cases (h n).symm.trans hfirst
      rw [h n']
      exact ⟨⟨w, n, n'⟩ :: declared, rfl, rfl, hplaces.cons hid⟩

theorem listOr_padded {void : Value → Prop} {same : Value → Value → Prop} {error : LoadError}
    {v v' : Value} {items : List Value} (h : PaddedList void same v v')
    (hread : listOr error v = .ok items) :
    ∃ items', listOr error v' = .ok items' ∧ Padded void same items items' := by
  cases h with
  | @list _ items' h =>
    cases hread
    exact ⟨items', rfl, h⟩
  | other h =>
    cases v with
    | null =>
      cases hread
      exact ⟨[], rfl, .nil⟩
    | list items => exact absurd rfl (h items)
    | _ => cases hread

def wiresOf (doc : Value) : Value := (doc.field? "wires").getD (field doc "edges")

def wireEntries (doc : Value) : List Value :=
  match wiresOf doc with
  | .list items => items
  | _ => []

theorem wireEntries_eq {doc : Value} {error : LoadError} {items : List Value}
    (h : listOr error (wiresOf doc) = .ok items) : wireEntries doc = items := by
  unfold wireEntries
  obtain ⟨hnull, rfl⟩ | hlist := listOr_eq_ok h
  · rw [hnull]
  · rw [hlist]

theorem read_eq_ok_iff {doc : Value} {g : Graph} :
    read doc = .ok g ↔ isObject doc = true ∧ ∃ nodeItems wireItems nodes wires,
      listOr .nodesNotList (field doc "nodes") = .ok nodeItems ∧
      listOr .wiresNotList (wiresOf doc) = .ok wireItems ∧
      collect readNode nodeItems = .ok nodes ∧
      collect readWire wireItems.zipIdx = .ok wires ∧ g = .ofLists nodes wires := by
  unfold read
  cases isObject doc with
  | false =>
    constructor
    · intro h
      cases h
    · rintro ⟨h, -⟩
      cases h
  | true =>
    refine ⟨fun hread => ⟨rfl, ?_⟩, ?_⟩
    · obtain ⟨nodeItems, hnodeItems, hread⟩ := Except.exists_of_bind_eq_ok hread
      obtain ⟨wireItems, hwireItems, hread⟩ := Except.exists_of_bind_eq_ok hread
      obtain ⟨nodes, hnodes, hread⟩ := Except.exists_of_bind_eq_ok hread
      obtain ⟨wires, hwires, hread⟩ := Except.exists_of_bind_eq_ok hread
      exact ⟨nodeItems, wireItems, nodes, wires, hnodeItems, hwireItems, hnodes, hwires,
        (Except.ok.inj hread).symm⟩
    · rintro ⟨-, nodeItems, wireItems, nodes, wires, hnodeItems, hwireItems, hnodes, hwires, rfl⟩
      change (listOr _ (field doc "nodes") >>= _) = _
      rw [hnodeItems]
      change (listOr _ (wiresOf doc) >>= _) = _
      rw [hwireItems]
      change (collect readNode nodeItems >>= _) = _
      rw [hnodes]
      change (collect readWire wireItems.zipIdx >>= _) = _
      rw [hwires]
      rfl

/-- Two documents give the same graph, where only the names of wires after their places differ. -/
structure Undisturbed (doc doc' : Value) (g g' : Graph) (declared : List Declared) : Prop where
  nodes : g'.nodeIndex = g.nodeIndex
  wires : g.wires = declared.map before
  wires' : g'.wires = declared.map after
  entry : ∀ d ∈ declared, ∃ v, (wireEntries doc)[d.old]? = some v ∧
    (wireEntries doc')[d.new]? = some v ∧ textOf (field v "id") = .ok d.wire.id
  order : declared.Pairwise fun d e => d.old < e.old ∧ d.new < e.new
  incoming : ∀ nodeId pinId,
    g.incoming? nodeId pinId =
      (declared.find? (·.wire.target = (nodeId, pinId))).map before ∧
    g'.incoming? nodeId pinId =
      (declared.find? (·.wire.target = (nodeId, pinId))).map after
  outgoing : ∀ nodeId pinId,
    g.outgoingFrom nodeId pinId =
      (declared.filter (·.wire.source = (nodeId, pinId))).map before ∧
    g'.outgoingFrom nodeId pinId =
      (declared.filter (·.wire.source = (nodeId, pinId))).map after

section

variable {place : Declared → Nat} (nodes : List Node) (declared : List Declared)
  (nodeId pinId : Text)

theorem incoming?_placed :
    (Graph.ofLists nodes (declared.map fun d => d.wire.placed (place d))).incoming? nodeId pinId =
      (declared.find? (·.wire.target = (nodeId, pinId))).map fun d => d.wire.placed (place d) := by
  rw [Graph.incoming?_ofLists, List.find?_map]
  congr 2
  funext d
  simp

theorem outgoingFrom_placed :
    (Graph.ofLists nodes (declared.map fun d => d.wire.placed (place d))).outgoingFrom nodeId
        pinId =
      (declared.filter (·.wire.source = (nodeId, pinId))).map fun d =>
        d.wire.placed (place d) := by
  rw [Graph.outgoingFrom_ofLists, List.filter_map]
  congr 2
  funext d
  simp

end

theorem undisturbed_ofLists {doc doc' : Value} {declared : List Declared} (nodes : List Node)
    (h : Places (wireEntries doc).zipIdx (wireEntries doc').zipIdx declared) :
    Undisturbed doc doc' (.ofLists nodes (declared.map before))
      (.ofLists nodes (declared.map after)) declared where
  nodes := rfl
  wires := rfl
  wires' := rfl
  entry d hd := by
    obtain ⟨v, hold, hnew, hid⟩ := h.entry d hd
    exact ⟨v, List.mem_zipIdx_iff_getElem?.mp hold, List.mem_zipIdx_iff_getElem?.mp hnew, hid⟩
  order := h.order
  incoming nodeId pinId :=
    ⟨incoming?_placed nodes declared nodeId pinId, incoming?_placed nodes declared nodeId pinId⟩
  outgoing nodeId pinId :=
    ⟨outgoingFrom_placed nodes declared nodeId pinId,
      outgoingFrom_placed nodes declared nodeId pinId⟩

namespace PaddedDocument

variable {doc doc' : Value} (h : PaddedDocument doc doc')

include h

theorem nodes : PaddedList VoidEntry PaddedNode (field doc "nodes") (field doc' "nodes") :=
  h.list (if_pos rfl)

theorem wires : PaddedList VoidWire Eq (wiresOf doc) (wiresOf doc') := by
  have hpad (key : Text) (hkey : key ∈ wireKeys) : padItems key = PaddedList VoidWire Eq := by
    rw [padItems, if_neg, if_pos hkey]
    rintro rfl
    revert hkey
    decide
  have hwires := h.rel_field? "wires"
  rw [hpad "wires" (by decide)] at hwires
  exact rel_getD hwires (h.list (hpad "edges" (by decide)))

end PaddedDocument

/-- Nodes and pins are skipped for want of an identifier, wires for want of an end. A document that
can be read can still be read when such entries are put anywhere between the others, and it gives
the same graph: the same nodes with the same pins, and the same wires in the same order and at the
same pins, where a wire without a name of its own is called after its new place. -/
theorem read_padded :
    (∀ v, readNode v = .ok none ↔ VoidEntry v) ∧
    (∀ nodeId side v, readPin nodeId side v = .ok none ↔ VoidEntry v) ∧
    (∀ v position, readWire (v, position) = .ok none ↔ VoidWire v) ∧
    ∀ {doc doc' : Value} {g : Graph}, PaddedDocument doc doc' → read doc = .ok g →
      ∃ g' declared, read doc' = .ok g' ∧ Undisturbed doc doc' g g' declared := by
  refine ⟨readNode_eq_none_iff, readPin_eq_none_iff, readWire_eq_none_iff, ?_⟩
  intro doc doc' g h hread
  obtain ⟨hobject, nodeItems, wireItems, nodes, wires, hnodeItems, hwireItems, hnodes, hwires,
    rfl⟩ := read_eq_ok_iff.mp hread
  obtain ⟨nodeItems', hnodeItems', hpaddedNodes⟩ := listOr_padded h.nodes hnodeItems
  obtain ⟨wireItems', hwireItems', hpaddedWires⟩ := listOr_padded h.wires hwireItems
  obtain ⟨declared, rfl, hwires', hplaces⟩ := collect_wires_padded hpaddedWires 0 hwires
  have hnodes' : collect readNode nodeItems' = .ok nodes := by
    rw [← hnodes]
    exact collect_padded (fun v hv => (readNode_eq_none_iff v).mpr hv)
      (fun _ _ => readNode_padded) hpaddedNodes
  refine ⟨.ofLists nodes (declared.map after), declared, read_eq_ok_iff.mpr ⟨?_, ?_⟩, ?_⟩
  · rw [h.isObject_eq, hobject]
  · exact ⟨nodeItems', wireItems', nodes, _, hnodeItems', hwireItems', hnodes', hwires', rfl⟩
  · apply undisturbed_ofLists
    rw [wireEntries_eq hwireItems, wireEntries_eq hwireItems']
    exact hplaces

namespace Sample

def pin (id : Text) : Value := .record [("id", .text id)]

def node (inputs : List Value) : Value :=
  .record [("id", .text "a"), ("type", .text "Branch"), ("inputs", .list inputs)]

def wire (id : Value) : Value :=
  .record
    [("id", id), ("fromNodeId", .text "a"), ("fromPinId", .text "p"), ("toNodeId", .text "b"),
     ("toPinId", .text "q")]

def plain : Value :=
  .record [("nodes", .list [node [pin "p"]]), ("wires", .list [wire .null, wire (.text "w")])]

def padded : Value :=
  .record
    [("nodes", .list [.null, node [pin " ", pin "p", .int 3], pin ""]),
     ("wires", .list [.text "w", wire .null, pin "w", wire (.text "w")])]

theorem paddedNode : PaddedNode (node [pin "p"]) (node [pin " ", pin "p", .int 3]) := by
  refine .object (.cons ⟨rfl, ?_⟩ (.cons ⟨rfl, ?_⟩ (.cons ⟨rfl, ?_⟩ .nil)))
  · rw [padPins, if_neg (by decide)]
  · rw [padPins, if_neg (by decide)]
  · rw [padPins, if_pos (by decide)]
    have hblank : Unnamed (.text " ") := .inr ⟨" ", rfl, by decide⟩
    exact .list (.added (.inr hblank) (.kept rfl (.added (.inl rfl) .nil)))

theorem paddedDocument : PaddedDocument plain padded := by
  have hempty : ∀ keys ∈ endKeys, (first (pin "w") keys).isEmpty = true := by decide
  have hends : VoidWire (pin "w") :=
    .inr ⟨fun keys hkeys => Value.writable_of_isEmpty (hempty keys hkeys), _,
      List.mem_cons_self, .inl rfl⟩
  refine .object (.cons ⟨rfl, ?_⟩ (.cons ⟨rfl, ?_⟩ .nil))
  · rw [padItems, if_pos rfl]
    exact .list (.added (.inl rfl) (.kept paddedNode (.added (.inr (.inl rfl)) .nil)))
  · rw [padItems, if_neg (by decide), if_pos (by decide)]
    exact .list (.added (.inl rfl) (.kept rfl (.added hends (.kept rfl .nil))))

theorem read_padded_sample :
    PaddedDocument plain padded ∧ ∃ g g' declared,
      read plain = .ok g ∧ read padded = .ok g' ∧ Undisturbed plain padded g g' declared ∧
      g.wires.map Wire.id = ["wire-0", "w"] ∧ g'.wires.map Wire.id = ["wire-1", "w"] := by
  have hplain : (read plain).map (·.wires.map Wire.id) = .ok ["wire-0", "w"] := rfl
  have hpadded : (read padded).map (·.wires.map Wire.id) = .ok ["wire-1", "w"] := rfl
  obtain ⟨g, hg, hids⟩ := Except.exists_of_map_eq_ok hplain
  obtain ⟨g', declared, hg', h⟩ := read_padded.2.2.2 paddedDocument hg
  rw [hg'] at hpadded
  exact ⟨paddedDocument, g, g', declared, hg, hg', h, hids.symm, Except.ok.inj hpadded⟩

end Sample

end Document

end NodeScript
