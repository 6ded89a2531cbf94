import NodeScript.Proofs.LoopVisits

/-!
How long the state of a loop lasts. A loop has a state as long as its node waits in the queue for
the next iteration, so that a loop which is entered again counts from zero. The exception is a
conditional loop whose condition cannot be read: its state stays behind.
-/

namespace NodeScript.Run

section

variable {setting : Setting} {s : State} {node : Node} {id : Text} {m n : Nat}

def Queued (s : State) (id : Text) : Prop := ∃ node ∈ s.queue, node.id = id

def Unvisited (setting : Setting) (s : State) (id : Text) (m n : Nat) : Prop :=
  ∀ i, m ≤ i → i < n → ∀ node, visited? setting s i = some node → node.id ≠ id

/-- The last of the first `n` visits to a conditional loop could not read its condition. -/
def Abandoned (setting : Setting) (s : State) (n : Nat) (id : Text) : Prop :=
  ∃ k < n, Unvisited setting s id (k + 1) n ∧ ∃ node t fault, node.kind = .whileLoop ∧
    node.id = id ∧ ReadsAfter setting s k node "Condition" t ∧
    (read setting node "Condition" t).1 = .error fault

theorem ReadsAfter.visited? {label : Text} {t : State} (h : ReadsAfter setting s n node label t) :
    visited? setting s n = some node ∧ Reads setting node (entering setting s n) label t := by
  obtain ⟨queue, hq, hr⟩ := h
  have hv : Run.visited? setting s n = some node := by rw [Run.visited?, hq, List.head?_cons]
  refine ⟨hv, ?_⟩
  rw [entering, hq]
  exact hr

theorem get?_of_unvisited (hl : setting.Limited) (hs : InGraph setting s.queue) (hle : m ≤ n)
    (h : Unvisited setting s id m n) :
    (drain setting n s).loops.counting.get? id = (drain setting m s).loops.counting.get? id ∧
      (drain setting n s).loops.conditional.get? id =
        (drain setting m s).loops.conditional.get? id := by
  induction n, hle using Nat.le_induction with
  | base => exact ⟨rfl, rfl⟩
  | succ n hle ih =>
    obtain ⟨hc, hw⟩ := ih fun i hi hn => h i hi (by omega)
    cases hv : visited? setting s n with
    | none =>
      rw [drain_succ_of_visited?_eq_none hv]
      exact ⟨hc, hw⟩
    | some node =>
      have hne : id ≠ node.id := Ne.symm (h n hle (by omega) node hv)
      obtain ⟨hc', hw'⟩ := (loopVisit_drain hl hs hv).get?_of_ne hne
      exact ⟨hc'.trans hc, hw'.trans hw⟩

theorem mem_queue_drain_succ (hs : InGraph setting s.queue)
    (hv : visited? setting s n = some node) {m : Node} (hm : m ∈ (drain setting n s).queue)
    (hne : m.id ≠ node.id) : m ∈ (drain setting (n + 1) s).queue := by
  rw [queue_of_visited? hv, List.mem_cons] at hm
  rw [drain_succ_of_visited? hv]
  apply mem_queue_visit (mem_nodes_of_visited? hs hv)
  exact hm.resolve_left fun h => hne (congrArg Node.id h)

theorem queued_of_counting (hl : setting.Limited) (hs : Begins setting s) {state : ForState}
    (h : (drain setting n s).loops.counting.get? id = some state) :
    ∃ m ∈ (drain setting n s).queue, m.id = id ∧ m.kind = .forLoop := by
  have hg := hs.inGraph
  induction n generalizing state with
  | zero => simp [drain, hs.loops] at h
  | succ n ih =>
    cases hv : visited? setting s n with
    | none =>
      rw [drain_succ_of_visited?_eq_none hv] at h ⊢
      exact ih h
    | some node =>
      have hvisit := loopVisit_drain hl hg hv
      by_cases hid : id = node.id
      · subst hid
        -- Where the visit leaves the state as it was, the node is a counting loop.
        have hkind : ∀ state, (entering setting s n).loops.counting.get? node.id = some state →
            node.kind = .forLoop := by
          intro state hstate
          obtain ⟨m, hm, hid, hk⟩ := ih hstate
          rwa [Graph.eq_of_id_eq (inGraph_drain hg n m hm) (mem_nodes_of_visited? hg hv) hid] at hk
        cases hvisit with
        | untouched hw hf he =>
          rw [he] at h
          simp [hf (hkind state h)] at h
        | counted hk hr ha he hq => exact ⟨node, hq, rfl, hk⟩
        | repeated hk he hq =>
          rw [he] at h
          simp [hkind state h] at hk
        | ended he =>
          rw [he] at h
          simp [Loops.finish] at h
        | unread hk hr hf he =>
          rw [he] at h
          simp [hkind state h] at hk
      · rw [(hvisit.get?_of_ne hid).1] at h
        obtain ⟨m, hm, hmid, hk⟩ := ih h
        exact ⟨m, mem_queue_drain_succ hg hv hm (hmid.trans_ne hid), hmid, hk⟩

theorem Abandoned.succ (h : Abandoned setting s n id)
    (hne : ∀ node, visited? setting s n = some node → node.id ≠ id) :
    Abandoned setting s (n + 1) id := by
  obtain ⟨k, hk, hunvisited, hlast⟩ := h
  refine ⟨k, by omega, fun i hi hn => ?_, hlast⟩
  by_cases he : i = n
  · exact he ▸ hne
  · exact hunvisited i hi (by omega)

theorem Abandoned.exists_loop (hs : InGraph setting s.queue) (h : Abandoned setting s n id) :
    ∃ m ∈ setting.graph.nodes, m.id = id ∧ m.kind = .whileLoop := by
  obtain ⟨k, -, -, node, t, fault, hk, hid, hr, -⟩ := h
  exact ⟨node, mem_nodes_of_visited? hs hr.visited?.1, hid, hk⟩

theorem queued_or_abandoned_of_conditional (hl : setting.Limited) (hs : Begins setting s)
    {iterations : Nat} (h : (drain setting n s).loops.conditional.get? id = some iterations) :
    (∃ m ∈ (drain setting n s).queue, m.id = id ∧ m.kind = .whileLoop) ∨
      Abandoned setting s n id := by
  have hg := hs.inGraph
  induction n generalizing iterations with
  | zero => simp [drain, hs.loops] at h
  | succ n ih =>
    cases hv : visited? setting s n with
    | none =>
      rw [drain_succ_of_visited?_eq_none hv] at h ⊢
      obtain hq | ha := ih h
      · exact .inl hq
      · exact .inr (ha.succ fun node hn => by simp [hv] at hn)
    | some node =>
      have hvisit := loopVisit_drain hl hg hv
      by_cases hid : id = node.id
      · subst hid
        -- Where the visit leaves the state as it was, the node is a conditional loop.
        have hkind : ∀ k, (entering setting s n).loops.conditional.get? node.id = some k →
            node.kind = .whileLoop := by
          intro k hstate
          have hloop : ∃ m ∈ setting.graph.nodes, m.id = node.id ∧ m.kind = .whileLoop := by
            obtain ⟨m, hm, hm'⟩ | ha := ih hstate
            · exact ⟨m, inGraph_drain hg n m hm, hm'⟩
            · exact ha.exists_loop hg
          obtain ⟨m, hm, hid, hk⟩ := hloop
          rwa [Graph.eq_of_id_eq hm (mem_nodes_of_visited? hg hv) hid] at hk
        cases hvisit with
        | untouched hw hf he =>
          rw [he] at h
          exact absurd (hkind iterations h) hw
        | counted hk hr ha he hq =>
          rw [he] at h
          simp [hkind iterations h] at hk
        | repeated hk he hq => exact .inl ⟨node, hq, rfl, hk⟩
        | ended he =>
          rw [he] at h
          simp [Loops.finish] at h
        | @unread fault t hk hr hf he =>
          refine .inr ⟨n, by omega, fun i hi hn => by omega, node, t, fault, hk, rfl, ?_, hf⟩
          exact ⟨_, queue_of_visited? hv, hr⟩
      · rw [(hvisit.get?_of_ne hid).2] at h
        obtain ⟨m, hm, hmid, hk⟩ | ha := ih h
        · exact .inl ⟨m, mem_queue_drain_succ hg hv hm (hmid.trans_ne hid), hmid, hk⟩
        · refine .inr (ha.succ fun m hm => ?_)
          rw [hv, Option.some.injEq] at hm
          exact hm ▸ Ne.symm hid

theorem queued_or_abandoned_of_underWay (hl : setting.Limited) (hs : Begins setting s)
    (h : (drain setting n s).loops.UnderWay id) :
    Queued (drain setting n s) id ∨ Abandoned setting s n id := by
  obtain hc | hw := h
  · obtain ⟨state, hstate⟩ := Option.isSome_iff_exists.mp hc
    obtain ⟨m, hm, hid, -⟩ := queued_of_counting hl hs hstate
    exact .inl ⟨m, hm, hid⟩
  · obtain ⟨iterations, hi⟩ := Option.isSome_iff_exists.mp hw
    obtain ⟨m, hm, hid, -⟩ | ha := queued_or_abandoned_of_conditional hl hs hi
    · exact .inl ⟨m, hm, hid⟩
    · exact .inr ha

theorem underWay_of_abandoned (hl : setting.Limited) (hs : InGraph setting s.queue)
    (h : Abandoned setting s n id) : (drain setting n s).loops.UnderWay id := by
  obtain ⟨k, hk, hunvisited, node, t, fault, hw, rfl, hr, hf⟩ := h
  obtain ⟨hv, hr⟩ := hr.visited?
  right
  rw [OrderedMap.contains, (get?_of_unvisited hl hs hk hunvisited).2, drain_succ_of_visited? hv,
    loops_visit_of_unread hw hr hf]
  simp [Loops.setWhile]

/-- A loop has a state only while it is queued, unless its last visit could not read its condition,
and then it has one. So no loop has a state when the queue is empty, and a loop that is not queued
counts from zero when it is visited next. -/
theorem underWay_only_while_queued (hl : setting.Limited) (hs : Begins setting s) :
    (∀ n id, ¬Abandoned setting s n id → (drain setting n s).loops.UnderWay id →
      Queued (drain setting n s) id) ∧
    (∀ n, (∀ id, ¬Abandoned setting s n id) → (drain setting n s).queue = [] →
      (drain setting n s).loops.active = 0) ∧
    (∀ m n id, ¬Abandoned setting s m id → ¬Queued (drain setting m s) id → m ≤ n →
      Unvisited setting s id m n →
      (drain setting n s).loops.counting.get? id = none ∧
        (drain setting n s).loops.iterations id = 0) ∧
    ∀ n id, Abandoned setting s n id → (drain setting n s).loops.UnderWay id := by
  have hqueued : ∀ n id, ¬Abandoned setting s n id → (drain setting n s).loops.UnderWay id →
      Queued (drain setting n s) id := fun n id ha h =>
    (queued_or_abandoned_of_underWay hl hs h).resolve_right ha
  refine ⟨hqueued, ?_, ?_, fun n id => underWay_of_abandoned hl hs.inGraph⟩
  · intro n ha hq
    apply Loops.active_eq_zero
    intro id h
    obtain ⟨node, hm, -⟩ := hqueued n id (ha id) h
    simp [hq] at hm
  · intro m n id ha hq hle hunvisited
    obtain ⟨hc, hw⟩ := Loops.not_underWay_iff.mp fun h => hq (hqueued m id ha h)
    obtain ⟨hc', hw'⟩ := get?_of_unvisited hl hs.inGraph hle hunvisited
    rw [Loops.iterations, hc', hw', hc, hw]
    exact ⟨rfl, rfl⟩

end

namespace Unreadable

open Sample

def loop : Node :=
  { id := "loop"
    kind := .whileLoop
    inputs := [⟨"condition", "loop", "Condition", .boolean, .input⟩] }

def graph (n : Nat) : Graph :=
  .ofLists [entry, loop, conversion, literal (.int n)]
    [⟨"1", "entry", "then", "loop", "in", .exec⟩,
      ⟨"2", "literal", "value", "conversion", "value", .integer⟩,
      ⟨"3", "conversion", "result", "loop", "condition", .float⟩]

theorem limited_setting (n : Nat) : (setting (graph n)).Limited := rfl

/-- The integer is too large for a float, so that the loop is given up with its state in place. -/
theorem underWay_and_not_queued :
    (setting (graph (16 ^ 256))).Limited ∧ Begins (setting (graph (16 ^ 256))) opening ∧
      (drain (setting (graph (16 ^ 256))) 2 opening).loops.UnderWay "loop" ∧
      ¬Queued (drain (setting (graph (16 ^ 256))) 2 opening) "loop" ∧
      (drain (setting (graph (16 ^ 256))) 2 opening).queue = [] ∧
      (drain (setting (graph (16 ^ 256))) 2 opening).loops.active = 1 := by
  have hq : (drain (setting (graph (16 ^ 256))) 2 opening).queue = [] :=
    List.isEmpty_iff.mp (by decide +kernel)
  refine ⟨limited_setting _, begins_opening rfl, .inr (by decide +kernel), ?_, hq,
    by decide +kernel⟩
  rintro ⟨node, hm, -⟩
  rw [hq] at hm
  exact List.not_mem_nil hm

theorem not_abandoned_one : ¬Abandoned (setting (graph 1)) opening 2 "loop" := by
  rintro ⟨k, hk, -, node, t, fault, hw, -, hr, hf⟩
  obtain ⟨hv, hr⟩ := hr.visited?
  match k with
  | 0 =>
    obtain rfl : entry = node := Option.some.inj hv
    cases hw
  | 1 =>
    obtain rfl : loop = node := Option.some.inj hv
    obtain ⟨-, rfl⟩ := hr.of_whileLoop hw
    cases hf

/-- The condition is true, and the loop is queued for its second iteration. -/
theorem underWay_and_queued :
    (setting (graph 1)).Limited ∧ Begins (setting (graph 1)) opening ∧
      ¬Abandoned (setting (graph 1)) opening 2 "loop" ∧
      (drain (setting (graph 1)) 2 opening).loops.UnderWay "loop" ∧
      Queued (drain (setting (graph 1)) 2 opening) "loop" := by
  have hb : Begins (setting (graph 1)) opening := begins_opening rfl
  have hu : (drain (setting (graph 1)) 2 opening).loops.UnderWay "loop" := .inr (by decide +kernel)
  exact ⟨limited_setting 1, hb, not_abandoned_one, hu,
    (underWay_only_while_queued (limited_setting 1) hb).1 2 "loop" not_abandoned_one hu⟩

end Unreadable

end NodeScript.Run
