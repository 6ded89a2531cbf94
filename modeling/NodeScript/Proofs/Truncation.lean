import NodeScript.Proofs.Reads
import NodeScript.Proofs.Warnings

namespace NodeScript

/-- What has been written before the report of what is still queued and the listing of the
variables. -/
def Trace.body (t : Trace) : List Entry := t.entries.takeWhile fun e => !e.isClosing

theorem Entry.isClosing_eq_false {e : Entry} (h : e.isWarning = true) : e.isClosing = false := by
  cases e with
  | warning node message => rfl
  | print text | error cause | trailer text => cases h

theorem Trace.body_eq {t u v : Trace} (ht : t.entries = [])
    (htu : t.Extends (·.isClosing = false) u) (huv : u.Extends (·.isClosing = true) v) :
    v.body = u.entries := by
  obtain ⟨before, hu, hbefore⟩ := htu
  obtain ⟨closing, hv, hclosing⟩ := huv
  rw [ht, List.nil_append] at hu
  rw [body, hv, hu, List.takeWhile_append_of_pos fun e he => by simp [hbefore e he]]
  cases closing with
  | nil => simp
  | cons e closing => simp [hclosing e List.mem_cons_self]

namespace Run

section

variable {setting : Setting} {s t u : State} {node entry : Node} {m n : Nat}

theorem drain_eq_of_queue_eq_nil (h : (drain setting m s).queue = []) (hle : m ≤ n) :
    drain setting n s = drain setting m s := by
  induction n, hle using Nat.le_induction with
  | base => rfl
  | succ n hle ih => rw [drain_succ, ih, step, h]

theorem prefix_visits (setting : Setting) (s : State) (hle : m ≤ n) :
    visits setting s m <+: visits setting s n := by
  induction n, hle using Nat.le_induction with
  | base => exact List.prefix_rfl
  | succ n hle ih =>
    rw [visits_succ]
    exact ih.trans (List.prefix_append _ _)

theorem length_visits_of_queue_ne_nil (h : (drain setting n s).queue ≠ []) :
    (visits setting s n).length = n := by
  induction n with
  | zero => rfl
  | succ n ih =>
    cases hv : visited? setting s n with
    | none =>
      rw [drain_succ_of_visited?_eq_none hv] at h
      exact absurd (List.head?_eq_none_iff.mp hv) h
    | some node =>
      have hq : (drain setting n s).queue ≠ [] := by simp [queue_of_visited? hv]
      rw [visits_succ, hv, List.length_append, ih hq]
      rfl

theorem visits_eq_of_queue_eq_nil (h : (drain setting m s).queue = []) (hle : m ≤ n) :
    visits setting s n = visits setting s m := by
  induction n, hle using Nat.le_induction with
  | base => rfl
  | succ n hle ih =>
    have hv : visited? setting s n = none := by
      rw [visited?, drain_eq_of_queue_eq_nil h hle, h, List.head?_nil]
    rw [visits_succ, hv, ih]
    exact List.append_nil _

theorem length_visits (setting : Setting) (s : State) (hle : m ≤ n) :
    (visits setting s m).length = min m (visits setting s n).length := by
  by_cases hq : (drain setting m s).queue = []
  · have hn : visits setting s n = visits setting s m := visits_eq_of_queue_eq_nil hq hle
    have hm : (visits setting s m).length ≤ m := by
      simpa [visits] using List.length_filterMap_le (visited? setting s) (List.range m)
    rw [hn]
    omega
  · have hm := length_visits_of_queue_ne_nil hq
    have hn := (prefix_visits setting s hle).length_le
    omega

/-- Between two states nothing has been written that belongs to the end of a run. -/
def Continues (s t : State) : Prop := s.trace.Extends (·.isClosing = false) t.trace

theorem Continues.of_trace (h : t.trace = s.trace) : Continues s t := by
  rw [Continues, h]
  exact .refl _ _

theorem stable_continues (setting : Setting) : Stable setting Continues where
  refl _ := .of_trace rfl
  trans := .trans
  read s node label :=
    (Evaluation.warned_inputValue (s.scene setting) s.evaluation node label).mono
      fun _ => Entry.isClosing_eq_false
  trace s _ he := s.trace.extends_append he
  loops _ _ := .of_trace rfl
  bindings _ _ := .of_trace rfl
  bump _ := .of_trace rfl

theorem continues_drain (hs : InGraph setting s.queue) (hle : m ≤ n) :
    Continues (drain setting m s) (drain setting n s) :=
  (stable_continues setting).drain (fun _ _ => .of_trace rfl) (fun _ _ => .of_trace rfl) hs hle

theorem extends_close (trace : Trace) (vs : Variables) :
    trace.Extends (·.isClosing = true) (trace.close vs).2 := by
  have hseparator : trace.Extends (·.isClosing = true) (trace.append (.trailer Trace.separator)) :=
    trace.extends_append rfl
  unfold Trace.close
  cases vs.listing with
  | error fault => exact hseparator
  | ok ls => exact hseparator.trans ⟨ls.map .trailer, rfl, by simp [Entry.isClosing]⟩

theorem extends_conclude (setting : Setting) (entry : Node) (s : State) :
    s.trace.Extends (·.isClosing = true) (conclude setting entry s).2.trace := by
  have htrace : (conclude setting entry s).2.trace =
      ((if s.queue.isEmpty then s.trace
        else s.trace.report (.stepLimit entry setting.config.maxSteps s.queue.length)).close
          s.bindings).2 := rfl
  rw [htrace]
  split
  · exact extends_close s.trace s.bindings
  · have hreport : s.trace.Extends (·.isClosing = true)
        (s.trace.report (.stepLimit entry setting.config.maxSteps s.queue.length)) :=
      s.trace.extends_append rfl
    exact hreport.trans (extends_close _ s.bindings)

/-- The state in which the visits of a run begin: the first entry node is queued, if there is
one. -/
def opened (setting : Setting) (s : State) : State :=
  { s with queue := (setting.graph.nodesOfKind .beginPlay).head?.toList }

theorem inGraph_opened (setting : Setting) (s : State) :
    InGraph setting (opened setting s).queue := by
  intro m hm
  have hhead : (setting.graph.nodesOfKind .beginPlay).head? = some m := by
    simpa [opened] using hm
  exact List.mem_of_mem_filter (List.mem_of_mem_head? hhead)

theorem opened_of_no_entry (he : setting.graph.nodesOfKind .beginPlay = []) (hq : s.queue = []) :
    opened setting s = s := by
  rw [opened, he, List.head?_nil, Option.toList_none, ← hq]

theorem start_of_no_entry (setting : Setting)
    (he : setting.graph.nodesOfKind .beginPlay = []) (s : State) :
    start setting s =
      { lines := .ok [entryNotFound]
        state := s
        events := [⟨.warning, Log.runLogger, "blueprint run aborted: no entry node",
          [("nodes", .int setting.graph.size)]⟩] } := by
  rw [start, he]

theorem start_of_entry (setting : Setting) {others : List Node} {permitted : Nat}
    (he : setting.graph.nodesOfKind .beginPlay = entry :: others)
    (hp : setting.config.permittedSteps = .ok permitted) (s : State) :
    start setting s =
      let opening := startEvents setting.graph entry (others.length + 1)
      match conclude setting entry (drain setting permitted (opened setting s)) with
      | (.error fault, t) =>
        { lines := .error fault, state := t, events := opening ++ t.trace.events }
      | (.ok (), t) =>
        { lines := .ok t.trace.lines
          state := t
          events := opening ++ t.trace.events ++ [endEvent entry t] } := by
  rw [start, he, hp, opened, he]
  rfl

def Setting.withSteps (setting : Setting) (m : Int) : Setting :=
  { setting with config := { setting.config with maxSteps := .int m } }

theorem behaviour_withSteps (setting : Setting) (m : Int) (node : Node) :
    behaviour (setting.withSteps m) node = behaviour setting node := by
  unfold behaviour
  cases node.kind <;> rfl

theorem drain_withSteps (setting : Setting) (m : Int) (n : Nat) (s : State) :
    drain (setting.withSteps m) n s = drain setting n s := by
  induction n with
  | zero => rfl
  | succ n ih =>
    rw [drain_succ, drain_succ, ih]
    unfold step visit
    simp only [behaviour_withSteps]

theorem visits_withSteps (setting : Setting) (m : Int) (s : State) (n : Nat) :
    visits (setting.withSteps m) s n = visits setting s n := by
  unfold visits visited?
  simp only [drain_withSteps]

/-- The nodes that a run from the state `s` takes from the queue, in order. -/
def dequeued (setting : Setting) (s : State) : List Node :=
  match setting.config.permittedSteps with
  | .ok n => visits setting (opened setting s) n
  | .error _ => []

theorem dequeued_withSteps (setting : Setting) (m : Int) (s : State) :
    dequeued (setting.withSteps m) s = visits setting (opened setting s) m.toNat :=
  visits_withSteps setting m (opened setting s) m.toNat

/-- What a run returns depends on the limit through its last visit and the report of what is left
over. -/
theorem start_withSteps (m : Int) (s : State) {others : List Node}
    (he : setting.graph.nodesOfKind .beginPlay = entry :: others) :
    start (setting.withSteps m) s =
      let opening := startEvents setting.graph entry (others.length + 1)
      match conclude (setting.withSteps m) entry
        (drain setting m.toNat (opened setting s)) with
      | (.error fault, t) =>
        { lines := .error fault, state := t, events := opening ++ t.trace.events }
      | (.ok (), t) =>
        { lines := .ok t.trace.lines
          state := t
          events := opening ++ t.trace.events ++ [endEvent entry t] } := by
  have ho : opened (setting.withSteps m) s = opened setting s := rfl
  rw [start_of_entry (setting.withSteps m) he rfl s, ho, drain_withSteps]
  rfl

theorem state_start (m : Int) (s : State) {others : List Node}
    (he : setting.graph.nodesOfKind .beginPlay = entry :: others) :
    (start (setting.withSteps m) s).state =
      (conclude (setting.withSteps m) entry (drain setting m.toNat (opened setting s))).2 := by
  rw [start_withSteps m s he]
  dsimp only
  rcases conclude (setting.withSteps m) entry _ with ⟨fault | _, t⟩ <;> rfl

theorem ends_with_drain (setting : Setting) (m : Int) (hq : s.queue = [])
    (ht : s.trace.entries = []) :
    (start (setting.withSteps m) s).state.queue =
        (drain setting m.toNat (opened setting s)).queue ∧
      (start (setting.withSteps m) s).state.steps =
        (drain setting m.toNat (opened setting s)).steps ∧
      (start (setting.withSteps m) s).state.trace.body =
        (drain setting m.toNat (opened setting s)).trace.entries := by
  cases he : setting.graph.nodesOfKind .beginPlay with
  | nil =>
    have hd : drain setting m.toNat s = s := drain_eq_of_queue_eq_nil (m := 0) hq (Nat.zero_le _)
    rw [start_of_no_entry (setting.withSteps m) he, opened_of_no_entry he hq, hd,
      Trace.body, ht]
    exact ⟨rfl, rfl, rfl⟩
  | cons entry others =>
    rw [state_start m s he]
    refine ⟨rfl, rfl, ?_⟩
    exact Trace.body_eq ht (continues_drain (inGraph_opened setting s) (Nat.zero_le m.toNat))
      (extends_conclude (setting.withSteps m) entry _)

/-- A run that has nothing left to visit is the same under every higher limit. -/
theorem start_withSteps_eq {m m' : Int} (hle : m.toNat ≤ m'.toNat)
    (h : (drain setting m.toNat (opened setting s)).queue = []) :
    start (setting.withSteps m') s = start (setting.withSteps m) s := by
  cases he : setting.graph.nodesOfKind .beginPlay with
  | nil =>
    have hno (k : Int) := start_of_no_entry (setting.withSteps k) he s
    rw [hno, hno]
    rfl
  | cons entry others =>
    have hconclude : conclude (setting.withSteps m') entry
        (drain setting m.toNat (opened setting s)) =
        conclude (setting.withSteps m) entry (drain setting m.toNat (opened setting s)) := by
      rw [conclude, conclude, h]
      rfl
    rw [start_withSteps m s he, start_withSteps m' s he, drain_eq_of_queue_eq_nil h hle, hconclude]

/-- The limit of steps cuts a run off and changes nothing before: of two runs with limits
`m ≤ m'`, the first visits the first nodes of the second, as many as its limit permits, and writes
the beginning of what the second writes. If it has nothing left to visit, the runs are the same. -/
theorem step_limit_truncates (setting : Setting) {seed : Int}
    (hseed : setting.config.seed = .int seed) {m m' : Int} (hle : m ≤ m') :
    ∃ s r r', fresh setting.config = .ok s ∧ run (setting.withSteps m) = .ok r ∧
      run (setting.withSteps m') = .ok r' ∧
      dequeued (setting.withSteps m) s <+: dequeued (setting.withSteps m') s ∧
      r.state.steps = (dequeued (setting.withSteps m) s).length ∧
      r'.state.steps = (dequeued (setting.withSteps m') s).length ∧
      r.state.steps = min m.toNat r'.state.steps ∧
      r.state.trace.body <+: r'.state.trace.body ∧
      (r.state.queue = [] → r' = r) := by
  let s : State := { evaluation := { generator := .ofSeed seed setting.config.entropy } }
  have hfresh : fresh setting.config = .ok s := by
    rw [fresh, hseed]
    rfl
  have hrun (k : Int) : run (setting.withSteps k) = .ok (start (setting.withSteps k) s) := by
    have hk : fresh (setting.withSteps k).config = fresh setting.config := rfl
    rw [run, hk, hfresh]
    rfl
  have hg := inGraph_opened setting s
  have hle' : m.toNat ≤ m'.toNat := by omega
  obtain ⟨hq, hn, hb⟩ := ends_with_drain (s := s) setting m rfl rfl
  obtain ⟨-, hn', hb'⟩ := ends_with_drain (s := s) setting m' rfl rfl
  rw [steps_drain hg] at hn hn'
  refine ⟨s, _, _, hfresh, hrun m, hrun m', ?_⟩
  rw [dequeued_withSteps, dequeued_withSteps, hn, hn', hb, hb', hq]
  refine ⟨prefix_visits _ _ hle', Nat.zero_add _, Nat.zero_add _, ?_, ?_, start_withSteps_eq hle'⟩
  · have hlength := length_visits setting (opened setting s) hle'
    simpa [opened, s] using hlength
  · obtain ⟨es, he, -⟩ := continues_drain hg hle'
    exact ⟨es, he.symm⟩

end

namespace Endless

open Sample

def graph : Graph :=
  .ofLists [entry, print "print"]
    [⟨"1", "entry", "then", "print", "in", .exec⟩, ⟨"2", "print", "then", "print", "in", .exec⟩]

/-- The run would not end by itself, so that each of the limits cuts it off. -/
theorem step_limit_truncates_endless :
    (setting graph).config.seed = .int 0 ∧ (2 : Int) ≤ 4 ∧
      ∃ s r r', fresh (setting graph).config = .ok s ∧
        run ((setting graph).withSteps 2) = .ok r ∧ run ((setting graph).withSteps 4) = .ok r' ∧
        dequeued ((setting graph).withSteps 2) s <+: dequeued ((setting graph).withSteps 4) s ∧
        r.state.steps = (dequeued ((setting graph).withSteps 2) s).length ∧
        r'.state.steps = (dequeued ((setting graph).withSteps 4) s).length ∧
        r.state.steps = min 2 r'.state.steps ∧ r.state.trace.body <+: r'.state.trace.body ∧
        (r.state.queue = [] → r' = r) :=
  ⟨rfl, by decide, step_limit_truncates (setting graph) rfl (by decide)⟩

end Endless

end Run

end NodeScript
