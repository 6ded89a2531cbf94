import NodeScript.Proofs.Fallbacks
import NodeScript.Proofs.Warnings

/-!
Circular dependencies. An evaluation warns where it comes back to a node in progress, and goes on
without a value there. Nodes are marked one by one while results are kept for each output, so that a
result may hide the way back to a node in progress; but then the warning has been given before.
-/

namespace NodeScript

open Evaluation Relation

theorem Remark.ne_cycleWarning {message : Text} (h : Remark message) : message ≠ cycleWarning := by
  rintro rfl
  obtain ⟨rest, h | h⟩ := h
  · have hhead := congrArg (·.toList.head?) h
    simp [cycleWarning, Text.toList_append, Text.toList_coe] at hhead
  · have hhead := congrArg (·.toList.head?) h
    simp [cycleWarning, Text.toList_append, Text.toList_coe] at hhead

theorem NodeKind.ne_cycleWarning {k : NodeKind} {operation : Operation}
    (h : k.operation? = some operation) {i : Inputs} {g : Generator} {message : Text} {v : Value}
    (he : operation i g = .error (.warning message v)) : message ≠ cycleWarning := by
  have hends := NodeKind.ends_operation h i g
  rw [he] at hends
  cases hends with
  | warning hm => exact hm.ne_cycleWarning

namespace Evaluation

variable {scene : Scene} {g : Graph} {s t u : State} {node n : Node} {pin : Pin}

def CycleWarned (s t : State) : Prop :=
  ∃ es, t.trace.entries = s.trace.entries ++ es ∧ ∃ m, Entry.warning m cycleWarning ∈ es

theorem CycleWarned.warned (h : CycleWarned s t) (ht : Warned t u) : CycleWarned s u := by
  obtain ⟨es, hes, m, hm⟩ := h
  obtain ⟨fs, hfs, -⟩ := ht
  exact ⟨es ++ fs, by rw [hfs, hes, List.append_assoc], m, List.mem_append_left _ hm⟩

theorem Warned.cycleWarned (hs : Warned s t) (h : CycleWarned t u) : CycleWarned s u := by
  obtain ⟨es, hes, -⟩ := hs
  obtain ⟨fs, hfs, m, hm⟩ := h
  exact ⟨es ++ fs, by rw [hfs, hes, List.append_assoc], m, List.mem_append_right _ hm⟩

theorem warned_gather {depth : Nat} {pins : List Pin} {inputs : Inputs} {r : Except Fault Inputs}
    (h : Recursive.gather scene (Recursive.output scene depth) node pins inputs s = some (r, t)) :
    Warned s t :=
  Recursive.gather_preserves (R := Warned) (fun _ => .of_trace rfl)
    (fun _ _ _ => Trace.Extends.trans) (fun _ _ _ _ _ _ => warned_recursive) h

/-- Along the dependencies of a node with a result one comes to an end. -/
def Grounded (g : Graph) (s : State) : Prop := ∀ m ∈ g.nodes, s.HasResult m → Acc g.Feeds m

theorem Grounded.congr (h : Grounded g s) (hc : t.cache = s.cache)
    (hn : t.generation = s.generation) : Grounded g t := by
  rintro m hm ⟨pinId, v, hv⟩
  rw [State.cached?_congr hc hn] at hv
  exact h m hm ⟨pinId, v, hv⟩

theorem Grounded.store (h : Grounded g s) (hn : node ∈ g.nodes) (ha : Acc g.Feeds node)
    (pinId : Text) (v : Value) : Grounded g (s.store (node.id, pinId) v) := by
  rintro m hm ⟨pinId', v', hv⟩
  rw [State.cached?_store] at hv
  split at hv
  · rename_i hkey
    rwa [Graph.eq_of_id_eq hm hn (congrArg Prod.fst hkey)]
  · exact h m hm ⟨pinId', v', hv⟩

theorem Grounded.compute {f : Frame} (h : Grounded g s) (hn : f.node ∈ g.nodes)
    (ha : Acc g.Feeds f.node) : Grounded g (compute s f).2 := by
  have hran := ran_compute s f
  generalize Evaluation.compute s f = r at hran
  cases hran with
  | nothing | fault => exact h.congr rfl rfl
  | result | warning => exact Grounded.store (h.congr rfl rfl) hn ha _ _

/-- What is said of an evaluation that begins where the nodes with a result are grounded: a cycle is
warned of, or they still are, and so is the evaluated node if there is a value. -/
def Detects (scene : Scene) (depth : Nat) : Prop :=
  ∀ {s : State} {node : Node} {pin : Pin} {r : Except Fault Value} {t : State},
    node ∈ scene.graph.nodes → Grounded scene.graph s →
    Recursive.output scene depth s node pin = some (r, t) →
    CycleWarned s t ∨ Grounded scene.graph t ∧
      ∀ v, r = .ok v → immediate? scene node pin = none → Acc scene.graph.Feeds node

theorem Detects.gather {depth : Nat} (ih : Detects scene depth) {pins : List Pin} {inputs : Inputs}
    {r : Except Fault Inputs} (hs : Grounded scene.graph s)
    (h : Recursive.gather scene (Recursive.output scene depth) node pins inputs s = some (r, t)) :
    CycleWarned s t ∨ Grounded scene.graph t ∧
      ∀ gathered, r = .ok gathered → ∀ pin ∈ pins, ∀ source out,
        origin scene.graph node pin = .output source out → immediate? scene source out = none →
        Acc scene.graph.Feeds source := by
  induction pins generalizing inputs s with
  | nil =>
    cases h
    exact .inr ⟨hs, fun _ _ pin hp => absurd hp List.not_mem_nil⟩
  | cons pin pins ihp =>
    rw [Recursive.gather_cons] at h
    cases ho : origin scene.graph node pin with
    | value v =>
      simp only [ho] at h
      refine (ihp hs h).imp_right fun ⟨ht, hacc⟩ => ⟨ht, fun gathered hr p hp source out hp' => ?_⟩
      rcases List.mem_cons.mp hp with rfl | hp
      · cases ho.symm.trans hp'
      · exact hacc gathered hr p hp source out hp'
    | output source out =>
      simp only [ho] at h
      cases he : Recursive.output scene depth s source out with
      | none =>
        rw [he] at h
        cases h
      | some a =>
        obtain ⟨r', u⟩ := a
        have hsource := ih (mem_nodes_of_origin ho) hs he
        rw [he] at h
        cases r' with
        | error fault =>
          cases h
          exact hsource.imp_right fun ⟨ht, _⟩ => ⟨ht, nofun⟩
        | ok v =>
          rcases hsource with hc | ⟨hu, hacc⟩
          · exact .inl (hc.warned (warned_gather h))
          rcases ihp hu h with hc | ⟨ht, hrest⟩
          · exact .inl ((warned_recursive he).cycleWarned hc)
          refine .inr ⟨ht, fun gathered hr p hp source' out' hp' hi => ?_⟩
          rcases List.mem_cons.mp hp with rfl | hp
          · cases ho.symm.trans hp'
            exact hacc v rfl hi
          · exact hrest gathered hr p hp source' out' hp' hi

theorem acc_of_inputs
    (h : ∀ pin ∈ node.dataInputs, ∀ source out, origin scene.graph node pin = .output source out →
      immediate? scene source out = none → Acc scene.graph.Feeds source) :
    Acc scene.graph.Feeds node := by
  constructor
  rintro m ⟨hm, -, pin, hpin, out, ho, he⟩
  exact h pin hpin m out ho (immediate?_eq_none_iff.mpr ⟨he, hm⟩)

theorem detects (scene : Scene) (depth : Nat) : Detects scene depth := by
  induction depth with
  | zero =>
    intro s node pin r t hn hs h
    cases h
  | succ depth ih =>
    intro s node pin r t hn hs h
    rcases Recursive.output_cases h with hready | ⟨-, d, hdepth, ⟨gathered, u⟩, hg, hc⟩
    · cases r with
      | error fault =>
        cases Looked.of_eq hready with
        | fails hi => exact .inr ⟨hs, nofun⟩
      | ok v =>
        cases Looked.of_eq hready with
        | shows hi => exact .inr ⟨hs, fun _ _ hn => by cases hi.symm.trans hn⟩
        | remembers hi hv =>
          have hresult : s.HasResult node := ⟨pin.id, v, cached?_of_remembered? hv⟩
          exact .inr ⟨hs.congr rfl rfl, fun _ _ _ => hs node hn hresult⟩
        | circular hi hv hp =>
          exact .inl ⟨[.warning node cycleWarning], rfl, node, List.mem_singleton_self _⟩
    · cases hdepth
      have hsm : Grounded scene.graph (s.mark node.id) := hs.congr rfl rfl
      have hw := warned_complete node pin (gathered, u)
      rw [hc] at hw
      rcases ih.gather hsm hg with hcycle | ⟨hu, hacc⟩
      · exact .inl (CycleWarned.warned (s := s) hcycle hw)
      · cases gathered with
        | error fault =>
          cases hc
          exact .inr ⟨hu.congr rfl rfl, nofun⟩
        | ok inputs =>
          have ha := acc_of_inputs (hacc inputs rfl)
          have ht := hu.compute (f := { Frame.start node pin with pending := [], inputs }) hn ha
          have hcw : Evaluation.compute u { Frame.start node pin with pending := [], inputs } =
              (r, t) := hc
          rw [hcw] at ht
          exact .inr ⟨ht, fun _ _ _ => ha⟩

/-- `n` depends on `m`, which depends on itself. -/
def Circular (g : Graph) (n m : Node) : Prop :=
  ReflTransGen g.Feeds m n ∧ TransGen g.Feeds m m

/-- If the entry warns of a circular dependency, there is one. -/
def Justified (g : Graph) (n : Node) (e : Entry) : Prop :=
  ∀ m, e = .warning m cycleWarning → Circular g n m

/-- `n` depends on `node`, and so do the nodes in progress. -/
def Entered (g : Graph) (n : Node) (s : State) (node : Node) : Prop :=
  ReflTransGen g.Feeds node n ∧
    ∀ id ∈ s.inProgress, ∃ k ∈ g.nodes, k.id = id ∧ TransGen g.Feeds node k

theorem Entered.circular (h : Entered g n s node) (hn : node ∈ g.nodes)
    (hid : node.id ∈ s.inProgress) : Circular g n node := by
  obtain ⟨k, hk, hkid, hpath⟩ := h.2 node.id hid
  rw [Graph.eq_of_id_eq hk hn hkid] at hpath
  exact ⟨h.1, hpath⟩

theorem Entered.of_feeds {source : Node} (h : Entered g n s node) (hn : node ∈ g.nodes)
    (hf : g.Feeds source node) (ht : t.inProgress = (s.mark node.id).inProgress) :
    Entered g n t source := by
  refine ⟨h.1.head hf, fun id hid => ?_⟩
  rw [ht, State.inProgress_mark, List.mem_cons] at hid
  rcases hid with rfl | hid
  · exact ⟨node, hn, rfl, .single hf⟩
  · obtain ⟨k, hk, hkid, hpath⟩ := h.2 id hid
    exact ⟨k, hk, hkid, hpath.head hf⟩

theorem extends_compute (g : Graph) (n : Node) (s : State) (f : Frame) :
    s.trace.Extends (Justified g n) (compute s f).2.trace := by
  have h := ran_compute s f
  generalize compute s f = r at h
  cases h with
  | warning hk ho =>
    refine s.trace.extends_append fun m hm => ?_
    cases hm
    exact absurd rfl (NodeKind.ne_cycleWarning hk ho)
  | _ => exact .refl _ _

theorem extends_complete (g : Graph) (n : Node) (node : Node) (pin : Pin)
    (gathered : Except Fault Inputs × State) :
    gathered.2.trace.Extends (Justified g n) (Recursive.complete node pin gathered).2.trace := by
  obtain ⟨fault | inputs, u⟩ := gathered
  · exact .refl _ _
  · exact extends_compute g n u _

theorem justified_gather {depth : Nat}
    (ih : ∀ {s : State} {node : Node} {pin : Pin} {r : Except Fault Value} {t : State},
      node ∈ scene.graph.nodes → (immediate? scene node pin = none → Entered scene.graph n s node) →
      Recursive.output scene depth s node pin = some (r, t) →
      s.trace.Extends (Justified scene.graph n) t.trace)
    (hn : node ∈ scene.graph.nodes) (hk : node.kind.operation?.isSome = true)
    (hu : Entered scene.graph n u node) {pins : List Pin} (hpins : ∀ p ∈ pins, p ∈ node.dataInputs)
    {inputs : Inputs} {r : Except Fault Inputs} (hs : s.inProgress = (u.mark node.id).inProgress)
    (h : Recursive.gather scene (Recursive.output scene depth) node pins inputs s = some (r, t)) :
    s.trace.Extends (Justified scene.graph n) t.trace := by
  induction pins generalizing inputs s with
  | nil =>
    cases h
    exact .refl _ _
  | cons pin pins ihp =>
    have hrest : ∀ p ∈ pins, p ∈ node.dataInputs := fun p hp => hpins p (List.mem_cons_of_mem _ hp)
    rw [Recursive.gather_cons] at h
    cases ho : origin scene.graph node pin with
    | value v =>
      simp only [ho] at h
      exact ihp hrest hs h
    | output source out =>
      simp only [ho] at h
      cases he : Recursive.output scene depth s source out with
      | none =>
        rw [he] at h
        cases h
      | some a =>
        obtain ⟨r', v⟩ := a
        have hsource := ih (mem_nodes_of_origin ho) (fun hi =>
          hu.of_feeds hn (feeds_of_origin hk (hpins pin List.mem_cons_self) ho hi) hs) he
        rw [he] at h
        cases r' with
        | error fault =>
          cases h
          exact hsource
        | ok w => exact hsource.trans (ihp hrest ((Recursive.inProgress_output he).trans hs) h)

theorem justified_output {depth : Nat} {r : Except Fault Value} (hn : node ∈ scene.graph.nodes)
    (hs : immediate? scene node pin = none → Entered scene.graph n s node)
    (h : Recursive.output scene depth s node pin = some (r, t)) :
    s.trace.Extends (Justified scene.graph n) t.trace := by
  induction depth generalizing s node pin r t with
  | zero => cases h
  | succ depth ih =>
    rcases Recursive.output_cases h with hready | ⟨hdue, d, hdepth, gathered, hg, hc⟩
    · cases r with
      | error fault =>
        cases Looked.of_eq hready with
        | fails hi => exact .refl _ _
      | ok v =>
        cases Looked.of_eq hready with
        | shows hi => exact .refl _ _
        | remembers hi hv => exact .refl _ _
        | circular hi hv hp =>
          refine s.trace.extends_append fun m hm => ?_
          cases hm
          exact (hs hi).circular hn hp
    · cases hdepth
      have hi := (ready_due hdue).2.1
      have hgather := justified_gather (fun hm he h => ih hm he h) hn
        (immediate?_eq_none_iff.mp hi).2 (hs hi) (fun _ hp => hp) rfl hg
      have hcomplete := extends_complete scene.graph n node pin gathered
      rw [hc] at hcomplete
      exact Trace.Extends.trans (t := s.trace) hgather hcomplete

theorem not_transGen_of_acc {α : Type} {r : α → α → Prop} {a : α} (h : Acc r a) :
    ¬TransGen r a a := by
  induction h with
  | intro a _ ih =>
    intro hcycle
    obtain ⟨b, hab, hba⟩ := TransGen.tail'_iff.mp hcycle
    exact ih b hba (TransGen.head' hba hab)

theorem Circular.not_acc (h : ∃ m, Circular g n m) : ¬Acc g.Feeds n := by
  obtain ⟨m, hm, hcycle⟩ := h
  intro hacc
  induction hm with
  | refl => exact not_transGen_of_acc hacc hcycle
  | tail _ hk ih => exact ih (hacc.inv hk)

/-- An evaluation that comes to a value, and begins without results and nodes in progress, warns of
a circular dependency exactly if the node depends on a node that depends on itself. -/
theorem cycle_warned_iff (scene : Scene) (hn : node ∈ scene.graph.nodes)
    (hk : node.kind.operation?.isSome = true) (hp : pin.isExec = false) (hs : s.inProgress = [])
    (hc : ∀ key, s.cached? key = none) {v : Value} (h : output scene s node pin = (.ok v, t)) :
    ∃ es, t.trace.entries = s.trace.entries ++ es ∧
      ((∃ m, Entry.warning m cycleWarning ∈ es) ↔
        ∃ m, ReflTransGen scene.graph.Feeds m node ∧ TransGen scene.graph.Feeds m m) := by
  have hrec := recursive_eq_some_output s hn pin
  rw [h] at hrec
  have hi : immediate? scene node pin = none := immediate?_eq_none_iff.mpr ⟨hp, hk⟩
  have hentered : Entered scene.graph node s node :=
    ⟨.refl, fun id hid => absurd (hs ▸ hid) List.not_mem_nil⟩
  obtain ⟨es, hes, hjust⟩ := justified_output hn (fun _ => hentered) hrec
  refine ⟨es, hes, fun ⟨m, hm⟩ => ⟨m, hjust _ hm m rfl⟩, fun hcycle => ?_⟩
  have hgrounded : Grounded scene.graph s := by
    rintro m - ⟨pinId, w, hw⟩
    rw [hc] at hw
    cases hw
  rcases detects scene _ hn hgrounded hrec with ⟨fs, hfs, m, hm⟩ | ⟨-, hacc⟩
  · rw [hes] at hfs
    exact ⟨m, List.append_cancel_left hfs ▸ hm⟩
  · exact absurd (hacc v rfl hi) (Circular.not_acc hcycle)

namespace Entangled

theorem feeds_sum : graph.Feeds sum sum :=
  ⟨rfl, rfl, ⟨"b", "sum", "B", .integer, .input⟩, by decide, result, rfl, rfl⟩

theorem cycle_warned_iff_sum :
    sum ∈ graph.nodes ∧ sum.kind.operation?.isSome = true ∧ result.isExec = false ∧
      beginning.inProgress = [] ∧ (∀ key, beginning.cached? key = none) ∧
      ∃ v t, output emptyScene beginning sum result = (.ok v, t) ∧
        ∃ m, Entry.warning m cycleWarning ∈ t.trace.entries := by
  refine ⟨sum_mem_nodes, rfl, rfl, rfl, fun _ => rfl, ?_⟩
  rcases h : output emptyScene beginning sum result with ⟨fault | v, t⟩
  · have hok : (output emptyScene beginning sum result).1.toBool = true := by decide +kernel
    rw [h] at hok
    cases hok
  · obtain ⟨es, hes, hiff⟩ :=
      cycle_warned_iff emptyScene sum_mem_nodes rfl rfl rfl (fun _ => rfl) h
    obtain ⟨m, hm⟩ := hiff.mpr ⟨sum, .refl, .single feeds_sum⟩
    exact ⟨v, t, rfl, m, hes ▸ List.mem_append_right _ hm⟩

end Entangled

end Evaluation

end NodeScript
