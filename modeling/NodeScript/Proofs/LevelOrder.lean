import Mathlib.Data.List.Infix
import NodeScript.Proofs.Outcomes
import NodeScript.Proofs.Truncation

/-!
The order of visits. Where control leaves a node the same way at every visit, what has been visited
and what is queued together are the entry node and what comes after the visited nodes. So a run
works through the nodes level by level, and nodes are left over exactly if the levels hold more of
them than the limit of steps permits.
-/

namespace NodeScript

/-- Control leaves a node of this kind the same way at every visit. -/
def NodeKind.isSteady : NodeKind → Bool
  | beginPlay | sequence | printString | setVariable | clearVariable => true
  | _ => false

/-- The outputs by which control leaves a node: all exec outputs of a sequence, and the exec outputs
without a label of any other node. -/
def Node.exits (n : Node) : List Pin :=
  n.outputs.filter fun p => p.isExec ∧ (n.kind = .sequence ∨ p.label = "")

def Entry.isStepLimit : Entry → Bool
  | error (.stepLimit ..) => true
  | _ => false

theorem Entry.isStepLimit_eq_false {e : Entry} (h : e.isClosing = false) :
    e.isStepLimit = false := by
  cases e with
  | error cause => cases cause <;> simp_all [isClosing, isStepLimit]
  | _ => rfl

namespace Graph

variable {g : Graph} {m n : Node} {k l : Nat}

def next (g : Graph) (n : Node) : List Node :=
  n.exits.flatMap fun p =>
    (g.wires.filter (·.source = (n.id, p.id))).filterMap fun w => g.node? w.toNode

/-- The first entry node is the first level; each level is followed by what comes after its
nodes. -/
def level (g : Graph) : Nat → List Node
  | 0 => (g.nodesOfKind .beginPlay).head?.toList
  | k + 1 => (g.level k).flatMap g.next

def levels (g : Graph) (k : Nat) : List Node := (List.range k).flatMap g.level

def ExecReachable (g : Graph) (n : Node) : Prop :=
  ∃ entry, (g.nodesOfKind .beginPlay).head? = some entry ∧
    Relation.ReflTransGen (fun a b => b ∈ g.next a) entry n

theorem successors_of_sequence (g : Graph) (hk : n.kind = .sequence) :
    g.successors n n.execOutputs = g.next n := by
  simp only [successors, next, targets_eq, Node.execOutputs, Node.exits, hk, true_or, and_true,
    Bool.decide_eq_true]

theorem follow_of_ne_sequence (g : Graph) (hk : n.kind ≠ .sequence) :
    g.follow n "" = g.next n := by
  simp only [follow, successors, next, targets_eq, Node.execOutputsLabelled, Node.execOutputs,
    Node.exits, List.filter_filter, hk, false_or, Bool.decide_and, Bool.decide_eq_true,
    Bool.and_comm]

theorem execReachable_of_mem_level (h : n ∈ g.level k) : g.ExecReachable n := by
  induction k generalizing n with
  | zero => exact ⟨n, by simpa [level] using h, .refl⟩
  | succ k ih =>
    obtain ⟨m, hm, hn⟩ := List.mem_flatMap.mp h
    obtain ⟨entry, he, hr⟩ := ih hm
    exact ⟨entry, he, hr.tail hn⟩

theorem execReachable_of_mem_levels (h : n ∈ g.levels k) : g.ExecReachable n := by
  obtain ⟨i, -, hi⟩ := List.mem_flatMap.mp h
  exact execReachable_of_mem_level hi

theorem ExecReachable.mem_nodes (h : g.ExecReachable n) : n ∈ g.nodes := by
  obtain ⟨entry, he, hr⟩ := h
  induction hr with
  | refl => exact List.mem_of_mem_filter (List.mem_of_mem_head? he)
  | tail _ hn _ =>
    obtain ⟨p, -, hp⟩ := List.mem_flatMap.mp hn
    obtain ⟨w, -, hw⟩ := List.mem_filterMap.mp hp
    exact mem_nodes_of_node? hw

theorem levels_succ (g : Graph) (k : Nat) :
    g.levels (k + 1) = g.level 0 ++ (g.levels k).flatMap g.next := by
  rw [levels, levels, List.range_succ_eq_map, List.flatMap_cons, List.flatMap_map,
    List.flatMap_assoc]
  rfl

theorem prefix_levels (g : Graph) (h : k ≤ l) : g.levels k <+: g.levels l := by
  obtain ⟨d, rfl⟩ := Nat.exists_eq_add_of_le h
  rw [levels, levels, List.range_add, List.flatMap_append]
  exact List.prefix_append _ _

theorem prefix_levels_succ {ns : List Node} (h : ns <+: g.levels k) :
    g.level 0 ++ ns.flatMap g.next <+: g.levels (k + 1) := by
  rw [levels_succ, List.prefix_append_right_inj]
  exact h.flatMap g.next

/-- A list that holds the entry node and what comes after its own nodes holds all levels. -/
theorem levels_prefix {ns : List Node} (h : ns = g.level 0 ++ ns.flatMap g.next) (k : Nat) :
    g.levels k <+: ns := by
  induction k with
  | zero => exact List.nil_prefix
  | succ k ih =>
    rw [levels_succ, h, List.prefix_append_right_inj]
    exact ih.flatMap g.next

end Graph

namespace Run

section

variable {setting : Setting} {node : Node} {s : State} {n k : Nat}

theorem writeStable_true (setting : Setting) : WriteStable setting (fun _ _ => True) where
  refl _ := trivial
  trans _ _ := trivial
  read _ _ _ := trivial
  trace _ _ _ := trivial
  bindings _ _ := trivial
  bump _ := trivial

theorem ensures_next (hk : node.kind.isSteady = true) :
    Ensures (fun _ _ => True) (· = setting.graph.next node) (behaviour setting node) := by
  have h := writeStable_true setting
  have hfollow (hs : node.kind ≠ .sequence) :
      Ensures (fun _ _ => True) (· = setting.graph.next node)
        (pure (setting.graph.follow node "") : Action (List Node)) :=
    h.ensures_pure (setting.graph.follow_of_ne_sequence hs)
  cases hkind : node.kind with
  | beginPlay =>
    simp only [behaviour, hkind]
    exact hfollow (by simp [hkind])
  | sequence =>
    simp only [behaviour, hkind]
    exact h.ensures_pure (setting.graph.successors_of_sequence hkind)
  | printString =>
    simp only [behaviour, hkind]
    apply h.ensures_bind (h.ensures_read node _)
    intro v _
    apply h.ensures_bind (h.ensures_lift _)
    intro text _
    apply h.ensures_bind (h.ensures_trace rfl)
    intro _ _
    exact hfollow (by simp [hkind])
  | setVariable =>
    simp only [behaviour, hkind]
    apply h.ensures_bind (h.ensures_variableName node)
    intro name _
    cases name with
    | none => exact hfollow (by simp [hkind])
    | some name =>
      apply h.ensures_bind (h.ensures_read node _)
      intro v _
      apply h.ensures_bind (h.ensures_bindings fun vs => vs.insert name v)
      intro _ _
      apply h.ensures_bind h.ensures_bump
      intro _ _
      exact hfollow (by simp [hkind])
  | clearVariable =>
    simp only [behaviour, hkind]
    apply h.ensures_bind (h.ensures_variableName node)
    intro name _
    cases name with
    | none => exact hfollow (by simp [hkind])
    | some name =>
      apply h.ensures_bind (h.ensures_bindings fun vs => vs.erase name)
      intro _ _
      apply h.ensures_bind h.ensures_bump
      intro _ _
      exact hfollow (by simp [hkind])
  | _ => simp [NodeKind.isSteady, hkind] at hk

theorem queue_visit_of_steady (hn : node ∈ setting.graph.nodes)
    (hv : visited? setting s n = some node) (hk : node.kind.isSteady = true)
    (hf : failsAt setting s n = false) :
    (drain setting (n + 1) s).queue =
      (entering setting s n).queue ++ setting.graph.next node := by
  rw [drain_succ_of_visited? hv, queue_visit hn]
  cases hb : (behaviour setting node (entering setting s n)).1 with
  | ok next => rw [(ensures_next hk (entering setting s n)).2 next hb]
  | error fault =>
    have hfails := (failsAt_of_visited? hv).mpr ⟨fault, hb⟩
    simp [hf] at hfails

/-- The visits so far and what is queued now, beside the levels of the graph. -/
structure Levelled (setting : Setting) (s : State) (n : Nat) : Prop where
  /-- Everything that was ever queued is the entry node, or comes after a visited node. -/
  queued : visits setting s n ++ (drain setting n s).queue =
    setting.graph.level 0 ++ (visits setting s n).flatMap setting.graph.next
  visited : visits setting s n <+: setting.graph.levels n

theorem Levelled.prefix_queued (h : Levelled setting s n) :
    visits setting s n ++ (drain setting n s).queue <+: setting.graph.levels (n + 1) := by
  rw [h.queued]
  exact Graph.prefix_levels_succ h.visited

theorem Levelled.succ (hs : InGraph setting s.queue)
    (hk : ∀ m, setting.graph.ExecReachable m → m.kind.isSteady = true)
    (hf : failsAt setting s n = false) (h : Levelled setting s n) :
    Levelled setting s (n + 1) := by
  have hprefix := h.prefix_queued
  have hqueued := h.queued
  cases hv : visited? setting s n with
  | none =>
    constructor
    · rw [visits_succ, hv, drain_succ_of_visited?_eq_none hv]
      simpa using hqueued
    · rw [visits_succ, hv]
      simpa using h.visited.trans (setting.graph.prefix_levels n.le_succ)
  | some node =>
    rw [queue_of_visited? hv] at hprefix hqueued
    have hmem : node ∈ setting.graph.levels (n + 1) := hprefix.subset (by simp)
    have hsteady := hk node (Graph.execReachable_of_mem_levels hmem)
    constructor
    · rw [visits_succ, hv, queue_visit_of_steady (mem_nodes_of_visited? hs hv) hv hsteady hf,
        List.flatMap_append, ← List.append_assoc (setting.graph.level 0), ← hqueued]
      simp
    · rw [visits_succ, hv]
      apply List.IsPrefix.trans _ hprefix
      simp

/-- As long as no visit fails, the queue stands between two levels. -/
theorem levelled_drain (hs : s.queue = setting.graph.level 0) (hg : InGraph setting s.queue)
    (hk : ∀ m, setting.graph.ExecReachable m → m.kind.isSteady = true)
    (hf : ∀ i < n, failsAt setting s i = false) : Levelled setting s n := by
  induction n with
  | zero => exact ⟨by simpa [visits, drain] using hs, List.nil_prefix⟩
  | succ n ih =>
    have hn := ih fun i hi => hf i (hi.trans n.lt_succ_self)
    exact hn.succ hg hk (hf n n.lt_succ_self)

theorem length_visits_le (setting : Setting) (s : State) (n : Nat) :
    (visits setting s n).length ≤ n := by
  simpa [visits] using List.length_filterMap_le (visited? setting s) (List.range n)

theorem Levelled.levels_prefix (h : Levelled setting s n) (hq : (drain setting n s).queue = [])
    (k : Nat) : setting.graph.levels k <+: visits setting s n := by
  apply Graph.levels_prefix
  rw [← h.queued, hq, List.append_nil]

theorem Levelled.visits_eq (h : Levelled setting s n) (hk : n ≤ k) :
    visits setting s n = (setting.graph.levels k).take n := by
  have hprefix := h.visited.trans (setting.graph.prefix_levels hk)
  by_cases hq : (drain setting n s).queue = []
  · have hlevels := h.levels_prefix hq k
    have heq := hprefix.eq_of_length (Nat.le_antisymm hprefix.length_le hlevels.length_le)
    rw [← heq, List.take_of_length_le (length_visits_le setting s n)]
  · have htake := List.prefix_iff_eq_take.mp hprefix
    rwa [length_visits_of_queue_ne_nil hq] at htake

theorem Levelled.queue_ne_nil_iff (h : Levelled setting s n) :
    (drain setting n s).queue ≠ [] ↔ ∃ k, n < (setting.graph.levels k).length := by
  constructor
  · intro hq
    have hlength := h.prefix_queued.length_le
    have hpos := List.length_pos_iff.mpr hq
    rw [List.length_append, length_visits_of_queue_ne_nil hq] at hlength
    exact ⟨n + 1, by omega⟩
  · rintro ⟨k, hk⟩ hq
    have hlevels := (h.levels_prefix hq k).length_le
    have hvisits := length_visits_le setting s n
    omega

theorem any_isStepLimit_close (trace : Trace) (vs : Variables) :
    (trace.close vs).2.entries.any Entry.isStepLimit = trace.entries.any Entry.isStepLimit := by
  unfold Trace.close
  cases vs.listing with
  | error fault => simp [Trace.append, Entry.isStepLimit]
  | ok ls => simp [Trace.append, Entry.isStepLimit, Function.comp_def]

theorem any_isStepLimit_conclude (entry : Node)
    (h : ∀ e ∈ s.trace.entries, e.isClosing = false) :
    (conclude setting entry s).2.trace.entries.any Entry.isStepLimit = !s.queue.isEmpty := by
  have hbefore : s.trace.entries.any Entry.isStepLimit = false := by
    rw [List.any_eq_false]
    intro e he
    simp [Entry.isStepLimit_eq_false (h e he)]
  have hclose (trace : Trace) := any_isStepLimit_close trace s.bindings
  cases hq : s.queue with
  | nil => simpa [conclude, hq, State.trace] using (hclose s.trace).trans hbefore
  | cons node queue =>
    simp [conclude, hq, State.trace, hclose, Trace.report, Trace.append, Entry.isStepLimit]

theorem withSteps_eq_self {m : Int} (h : setting.config.maxSteps = .int m) :
    setting.withSteps m = setting := by
  rw [Setting.withSteps, ← h]

theorem state_start_any_isStepLimit {m : Int} (hm : setting.config.maxSteps = .int m)
    (hq : s.queue = []) (ht : s.trace.entries = []) :
    (start setting s).state.trace.entries.any Entry.isStepLimit = true ↔
      (drain setting m.toNat (opened setting s)).queue ≠ [] := by
  cases he : setting.graph.nodesOfKind .beginPlay with
  | nil =>
    have hd : drain setting m.toNat s = s := drain_eq_of_queue_eq_nil (m := 0) hq (Nat.zero_le _)
    rw [start_of_no_entry setting he, opened_of_no_entry he hq, hd]
    simp [ht, hq]
  | cons entry others =>
    have hstate := state_start m s he
    rw [withSteps_eq_self hm] at hstate
    obtain ⟨es, hes, hopen⟩ := continues_drain (inGraph_opened setting s) m.toNat.zero_le
    have hentries : ∀ e ∈ (drain setting m.toNat (opened setting s)).trace.entries,
        e.isClosing = false := by
      intro e hmem
      have hblank : (opened setting s).trace.entries = [] := ht
      rw [hes] at hmem
      simp [drain, hblank] at hmem
      exact hopen e hmem
    rw [hstate, any_isStepLimit_conclude entry hentries]
    simp

/-- Control goes through a graph level by level. If only steady nodes can be reached and no visit
fails, the nodes that a run takes from the queue are the first ones of the levels, as many as the
limit permits, and the limit is reported exactly if the levels hold more. -/
theorem visits_in_level_order (setting : Setting) {m : Int}
    (hm : setting.config.maxSteps = .int m) (hs : fresh setting.config = .ok s)
    (hk : ∀ n, setting.graph.ExecReachable n → n.kind.isSteady = true)
    (hf : ∀ i < m.toNat, failsAt setting (opened setting s) i = false) :
    ∃ r, run setting = .ok r ∧
      (∀ k, m.toNat ≤ k → dequeued setting s = (setting.graph.levels k).take m.toNat) ∧
      r.state.steps = (dequeued setting s).length ∧
      (r.state.trace.entries.any Entry.isStepLimit = true ↔
        ∃ k, m.toNat < (setting.graph.levels k).length) := by
  have hself := withSteps_eq_self hm
  have hdequeued := dequeued_withSteps setting m s
  have hg := inGraph_opened setting s
  have hlevelled := levelled_drain rfl hg hk hf
  rw [hself] at hdequeued
  refine ⟨start setting s, by rw [run, hs]; rfl, ?_, ?_, ?_⟩
  · intro k hle
    rw [hdequeued]
    exact hlevelled.visits_eq hle
  · obtain ⟨generator, rfl⟩ := fresh_eq_ok hs
    have hends := (ends_with_drain (s := { evaluation := { generator } }) setting m rfl rfl).2.1
    rw [hself, steps_drain hg] at hends
    rw [hends, hdequeued]
    exact Nat.zero_add _
  · obtain ⟨generator, rfl⟩ := fresh_eq_ok hs
    rw [state_start_any_isStepLimit hm rfl rfl]
    exact hlevelled.queue_ne_nil_iff

end

namespace Roundabout

open Sample

def sequence : Node :=
  { id := "sequence"
    kind := .sequence
    outputs := [⟨"first", "sequence", "Then 0", .exec, .output⟩,
      ⟨"second", "sequence", "Then 1", .exec, .output⟩] }

def graph : Graph :=
  .ofLists [entry, sequence, print "left", print "right"]
    [⟨"1", "entry", "then", "sequence", "in", .exec⟩,
      ⟨"2", "sequence", "second", "right", "in", .exec⟩,
      ⟨"3", "sequence", "first", "left", "in", .exec⟩,
      ⟨"4", "sequence", "first", "right", "in", .exec⟩,
      ⟨"5", "left", "then", "nowhere", "in", .exec⟩,
      ⟨"6", "left", "then", "sequence", "in", .exec⟩]

def limited : Setting := { setting graph with config.maxSteps := .int 7 }

theorem isSteady_of_execReachable {n : Node} (h : graph.ExecReachable n) :
    n.kind.isSteady = true := by
  have hall : ∀ n ∈ graph.nodes, n.kind.isSteady = true := by decide
  exact hall n h.mem_nodes

/-- Five levels are begun when the limit is reached. The node on the right comes twice in each level
that it belongs to. -/
theorem visits_in_level_order_roundabout :
    limited.config.maxSteps = .int 7 ∧ fresh limited.config = .ok initial ∧
      (∀ n, graph.ExecReachable n → n.kind.isSteady = true) ∧
      (∀ i < (7 : Int).toNat, failsAt limited (opened limited initial) i = false) ∧
      (graph.levels 5).map Node.id =
        ["entry", "sequence", "left", "right", "right", "sequence", "left", "right", "right"] ∧
      ∃ r, run limited = .ok r ∧
        (∀ k, (7 : Int).toNat ≤ k → dequeued limited initial = (graph.levels k).take 7) ∧
        r.state.steps = (dequeued limited initial).length ∧
        (r.state.trace.entries.any Entry.isStepLimit = true ↔
          ∃ k, (7 : Int).toNat < (graph.levels k).length) := by
  have hf : ∀ i < (7 : Int).toNat, failsAt limited (opened limited initial) i = false := by
    decide +kernel
  have hk : ∀ n, limited.graph.ExecReachable n → n.kind.isSteady = true :=
    fun _ => isSteady_of_execReachable
  exact ⟨rfl, rfl, hk, hf, by decide +kernel, visits_in_level_order limited rfl rfl hk hf⟩

end Roundabout

end Run

end NodeScript
