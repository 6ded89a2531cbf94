import NodeScript.Proofs.Unwinding

/-!
In a generation each output is computed at most once. An operation is run only for an output that
has no result, and leaves one behind; nothing takes it away until a new generation begins.
-/

namespace NodeScript.Evaluation

variable {scene : Scene} {g : Graph} {s t u : State} {node : Node} {pin : Pin} {top f : Frame}
  {below stack : List Frame} {p q : Progress} {n : Nat} {v : Value}

namespace Progress

def state : Progress → State
  | running s _ _ => s
  | finished _ s => s

def next (scene : Scene) : Progress → Progress
  | running s top below => step scene s top below
  | p => p

/-- The output that the next step computes, with its value. -/
def computes? : Progress → Option (PinKey × Value)
  | running s top _ =>
    if top.pending.isEmpty then
      (compute s top).1.toOption.map fun v => ((top.node.id, top.pin.id), v)
    else none
  | finished .. => none

end Progress

def computed (scene : Scene) : Nat → Progress → List (PinKey × Value)
  | 0, _ => []
  | n + 1, p => p.computes?.toList ++ computed scene n (p.next scene)

theorem computed_finished (scene : Scene) (n : Nat) (r : Except Fault Value) (s : State) :
    computed scene n (.finished r s) = [] := by
  induction n with
  | zero => rfl
  | succ n ih => exact ih

theorem Takes.computed_add (h : Takes scene p n q) (k : Nat) :
    computed scene (n + k) p = computed scene n p ++ computed scene k q := by
  induction h with
  | refl p => rw [Nat.zero_add, computed, List.nil_append]
  | head _ ih => rw [Nat.add_right_comm, computed, computed, Progress.next, ih, List.append_assoc]

/-- From `s` to `t` the results in `es` have been added, for different outputs that had none. -/
structure Adds (es : List (PinKey × Value)) (s t : State) : Prop where
  nodup : (es.map Prod.fst).Nodup
  new : ∀ e ∈ es, s.cached? e.1 = none
  cached?_iff : ∀ key v, t.cached? key = some v ↔ (key, v) ∈ es ∨ s.cached? key = some v

theorem Adds.nothing (h : ∀ key, t.cached? key = s.cached? key) : Adds [] s t :=
  ⟨List.nodup_nil, fun _ h => absurd h List.not_mem_nil, fun key v => by simp [h]⟩

theorem Adds.single {key : PinKey} (hs : s.cached? key = none)
    (ht : ∀ key', t.cached? key' = if key' = key then some v else s.cached? key') :
    Adds [(key, v)] s t := by
  refine ⟨List.nodup_singleton _, fun e he => ?_, fun key' w => ?_⟩
  · cases List.mem_singleton.mp he
    exact hs
  · rw [ht]
    by_cases hk : key' = key
    · subst hk
      simp [hs, eq_comm]
    · simp [hk]

theorem Adds.kept {es : List (PinKey × Value)} (h : Adds es s t) {key : PinKey}
    (hs : s.cached? key = some v) : t.cached? key = some v :=
  (h.cached?_iff key v).mpr (.inr hs)

theorem Adds.trans {es fs : List (PinKey × Value)} (hst : Adds es s t) (htu : Adds fs t u) :
    Adds (es ++ fs) s u := by
  have hnew : ∀ e ∈ fs, s.cached? e.1 = none := by
    intro e he
    cases hs : s.cached? e.1 with
    | none => rfl
    | some v => exact absurd (hst.kept hs) (by rw [htu.new e he]; exact nofun)
  refine ⟨?_, fun e he => ?_, fun key v => ?_⟩
  · rw [List.map_append]
    refine hst.nodup.append htu.nodup fun key hes hfs => ?_
    obtain ⟨e, he, rfl⟩ := List.mem_map.mp hes
    obtain ⟨f, hf, hkey⟩ := List.mem_map.mp hfs
    have ht := (hst.cached?_iff e.1 e.2).mpr (.inl he)
    rw [← hkey, htu.new f hf] at ht
    cases ht
  · exact (List.mem_append.mp he).elim (hst.new e) (hnew e)
  · rw [htu.cached?_iff, hst.cached?_iff, List.mem_append, or_left_comm, or_assoc]

theorem cached?_compute (hk : f.node.kind.operation?.isSome = true)
    (h : compute s f = (.ok v, t)) (key : PinKey) :
    t.cached? key = if key = (f.node.id, f.pin.id) then some v else s.cached? key := by
  cases Ran.of_eq h with
  | nothing hn =>
    rw [hn] at hk
    cases hk
  | result => exact State.cached?_store _ _ _ _
  | warning => exact State.cached?_store _ _ _ _

theorem cached?_unmarkAll (stack : List Frame) (s : State) (key : PinKey) :
    (stack.foldl (fun s f => s.unmark f.node.id) s).cached? key = s.cached? key := by
  induction stack generalizing s with
  | nil => rfl
  | cons f stack ih => exact (ih _).trans rfl

/-- The frames stand for outputs of operations that have no result. -/
def Unanswered (s : State) (stack : List Frame) : Prop :=
  ∀ f ∈ stack, f.node.kind.operation?.isSome = true ∧ s.cached? (f.node.id, f.pin.id) = none

theorem Unanswered.replace (h : Unanswered s (top :: below))
    (ht : ∀ key, t.cached? key = s.cached? key) (hnode : f.node = top.node)
    (hpin : f.pin = top.pin) : Unanswered t (f :: below) := by
  intro x hx
  rw [ht]
  rcases List.mem_cons.mp hx with rfl | hx
  · rw [hnode, hpin]
    exact h top List.mem_cons_self
  · exact h x (List.mem_cons_of_mem _ hx)

/-- The frames below are for other nodes, so that a result for the one on top is none for them. -/
theorem Unanswered.pop (h : Unanswered s (top :: below)) (htracked : Tracked g s (top :: below))
    (ht : ∀ key, t.cached? key =
      if key = (top.node.id, top.pin.id) then some v else s.cached? key) :
    Unanswered t below := by
  intro x hx
  have hnodup := htracked.nodup
  rw [List.map_cons, List.nodup_cons] at hnodup
  have hid : x.node.id ≠ top.node.id :=
    ne_of_mem_of_not_mem (List.mem_map_of_mem (f := (·.node.id)) hx) hnodup.1
  rw [ht, if_neg fun hkey => hid (congrArg Prod.fst hkey)]
  exact h x (List.mem_cons_of_mem _ hx)

def Progress.Unanswered : Progress → Prop
  | .running s top below => Evaluation.Unanswered s (top :: below)
  | .finished .. => True

theorem cached?_of_due (hmemo : scene.memo = true) (h : ready scene s node pin = (.due, s)) :
    s.cached? (node.id, pin.id) = none := by
  cases Looked.of_eq h with
  | due hi hv hp => rwa [remembered?, if_pos hmemo] at hv

theorem unanswered_start (hmemo : scene.memo = true) (h : ready scene s node pin = (.due, s)) :
    node.kind.operation?.isSome = true ∧
      (s.mark node.id).cached? (node.id, pin.id) = none := by
  have hnone := cached?_of_due hmemo h
  exact ⟨(immediate?_eq_none_iff.mp (ready_due h).2.1).2, hnone⟩

/-- A step adds the result of what it computes. -/
theorem adds_step (hmemo : scene.memo = true) (htracked : Tracked g s (top :: below))
    (h : Unanswered s (top :: below)) :
    Adds (Progress.running s top below).computes?.toList s (step scene s top below).state ∧
      (step scene s top below).Unanswered := by
  have hm := moves_step scene s top below
  generalize step scene s top below = p at hm ⊢
  cases hm with
  | binds hp hnode hpin ht =>
    have hsame := State.cached?_congr ht.cache ht.generation
    rw [Progress.computes?, if_neg (by simpa using hp)]
    exact ⟨.nothing hsame, h.replace hsame hnode hpin⟩
  | opens hp hnode hpin hsource hd =>
    rw [Progress.computes?, if_neg (by simpa using hp)]
    refine ⟨.nothing fun _ => rfl, fun x hx => ?_⟩
    rcases List.mem_cons.mp hx with rfl | hx
    · exact unanswered_start hmemo hd
    · exact h.replace (fun _ => rfl) hnode hpin x hx
  | @completes v t hp hc =>
    obtain ⟨hk, hnone⟩ := h top List.mem_cons_self
    have hcached := cached?_compute hk hc
    have hcomputes : (Progress.running s top below).computes? =
        some ((top.node.id, top.pin.id), v) := by
      rw [Progress.computes?, if_pos (by simpa using hp), hc]
      rfl
    rw [hcomputes]
    have hbelow := h.pop htracked hcached
    cases below with
    | nil => exact ⟨.single hnone hcached, trivial⟩
    | cons parent below => exact ⟨.single hnone hcached, hbelow.replace (fun _ => rfl) rfl rfl⟩
  | fails hc =>
    have hcomputes : (Progress.running s top below).computes? = none := by
      rw [Progress.computes?]
      split
      · rename_i hp
        rw [hc (by simpa using hp)]
        rfl
      · rfl
    rw [hcomputes]
    exact ⟨.nothing fun key => cached?_unmarkAll below (s.unmark top.node.id) key, trivial⟩

theorem Takes.adds (hmemo : scene.memo = true) (h : Takes scene p n q)
    (htracked : p.Tracked scene.graph) (hp : p.Unanswered) :
    Adds (computed scene n p) p.state q.state := by
  induction h with
  | refl p => exact .nothing fun _ => rfl
  | head _ ih =>
    obtain ⟨hadds, hnext⟩ := adds_step hmemo htracked hp
    exact hadds.trans (ih (tracked_step htracked) hnext)

/-- A call together with the variables and the loops that it finds. -/
structure Asked where
  bindings : Variables
  loops : Loops
  call : Call

namespace Asked

def toScene (g : Graph) (a : Asked) : Scene :=
  { graph := g, bindings := a.bindings, loops := a.loops }

def answer (g : Graph) (s : State) (a : Asked) : Except Fault Value × State :=
  a.call.answer (a.toScene g) s

def begun (g : Graph) (s : State) (a : Asked) : Progress := a.call.begun (a.toScene g) s

def computed (g : Graph) (s : State) (a : Asked) : List (PinKey × Value) :=
  Evaluation.computed (a.toScene g) (stepBound g) (a.begun g s)

theorem state_begun (g : Graph) (s : State) (a : Asked) (key : PinKey) :
    (a.begun g s).state.cached? key = s.cached? key := by
  rw [begun, Call.begun]
  cases a.call.origin (a.toScene g).graph with
  | value v => rfl
  | output node pin =>
    have hg := glances_ready (a.toScene g) s node pin
    dsimp only
    unfold Evaluation.begun
    rcases hr : ready (a.toScene g) s node pin with ⟨v | fault | _, u⟩
    all_goals
      rw [hr] at hg
      exact State.cached?_congr hg.cache hg.generation key

theorem unanswered_begun (g : Graph) (s : State) (a : Asked) : (a.begun g s).Unanswered := by
  rw [begun, Call.begun]
  cases a.call.origin (a.toScene g).graph with
  | value v => trivial
  | output node pin =>
    dsimp only
    unfold Evaluation.begun
    rcases hr : ready (a.toScene g) s node pin with ⟨v | fault | _, u⟩
    · trivial
    · trivial
    · cases (ready_due hr).1
      intro x hx
      cases List.mem_singleton.mp hx
      exact unanswered_start rfl hr

theorem adds_takes (hs : s.inProgress = []) (a : Asked)
    (h : Takes (a.toScene g) (a.begun g s) n q) :
    Adds (Evaluation.computed (a.toScene g) n (a.begun g s)) s q.state := by
  have hadds := h.adds rfl (a.call.tracked_begun hs) (a.unanswered_begun g s)
  simpa using (Adds.nothing (a.state_begun g s)).trans hadds

theorem inProgress_answer (hs : s.inProgress = []) (a : Asked) : (a.answer g s).2.inProgress = [] :=
  a.call.inProgress_answer hs

theorem adds_answer (hs : s.inProgress = []) (a : Asked) :
    Adds (a.computed g s) s (a.answer g s).2 := by
  obtain ⟨n, hn, ht⟩ := a.call.takes_answer (a.toScene g) s
  obtain ⟨k, hk⟩ := Nat.exists_eq_add_of_le hn
  have hc := ht.computed_add k
  rw [computed_finished, List.append_nil, ← hk] at hc
  have hadds : Adds (Evaluation.computed (a.toScene g) n (a.call.begun (a.toScene g) s)) s
      (a.answer g s).2 := a.adds_takes hs ht
  rw [← hc] at hadds
  exact hadds

end Asked

def answerAll (g : Graph) (s : State) (asked : List Asked) : State :=
  asked.foldl (fun s a => (a.answer g s).2) s

def computedAll (g : Graph) : State → List Asked → List (PinKey × Value)
  | _, [] => []
  | s, a :: asked => a.computed g s ++ computedAll g (a.answer g s).2 asked

theorem adds_answerAll (hs : s.inProgress = []) (asked : List Asked) :
    Adds (computedAll g s asked) s (answerAll g s asked) ∧
      (answerAll g s asked).inProgress = [] := by
  induction asked generalizing s with
  | nil => exact ⟨.nothing fun _ => rfl, hs⟩
  | cons a asked ih =>
    obtain ⟨hadds, hp⟩ := ih (a.inProgress_answer hs)
    exact ⟨(a.adds_answer hs).trans hadds, hp⟩

theorem ready_of_cached? (hi : immediate? scene node pin = none) (hmemo : scene.memo = true)
    (h : s.cached? (node.id, pin.id) = some v) :
    ready scene s node pin = (.known v, { s with cacheHits := s.cacheHits + 1 }) := by
  rw [ready_of_operation hi, remembered?, if_pos hmemo, h]

theorem output_of_cached? (hi : immediate? scene node pin = none) (hmemo : scene.memo = true)
    (h : s.cached? (node.id, pin.id) = some v) :
    output scene s node pin = (.ok v, { s with cacheHits := s.cacheHits + 1 }) := by
  rw [output, ready_of_cached? hi hmemo h]

/-- An evaluation that comes to a value leaves it behind as the result. -/
theorem cached?_output (hi : immediate? scene node pin = none) (hmemo : scene.memo = true)
    (hn : node ∈ scene.graph.nodes) (hs : s.inProgress = [])
    (h : output scene s node pin = (.ok v, t)) : t.cached? (node.id, pin.id) = some v := by
  cases hc : s.cached? (node.id, pin.id) with
  | some w =>
    rw [output_of_cached? hi hmemo hc] at h
    cases h
    exact (State.cached?_congr rfl rfl _).trans hc
  | none =>
    have hrec := recursive_eq_some_output s hn pin
    rw [h] at hrec
    rcases Recursive.output_cases hrec with hr | ⟨-, d, -, ⟨fault | inputs, u⟩, -, hcomplete⟩
    · rw [ready_of_operation hi, remembered?, if_pos hmemo, hc, hs] at hr
      cases hr
    · cases hcomplete
    · rw [cached?_compute (immediate?_eq_none_iff.mp hi).2 hcomplete]
      exact if_pos rfl

/-- The states that an evaluation of a graph comes to between calls: it begins with nothing, each
call may find other variables and loops, and others write to the trace. -/
inductive Reachable (g : Graph) : State → Prop
  | fresh (generator : Generator) (trace : Trace) : Reachable g { generator, trace }
  | call {s : State} (h : Reachable g s) (a : Asked) : Reachable g (a.answer g s).2
  | bump {s : State} (h : Reachable g s) : Reachable g s.bump
  | write {s : State} (h : Reachable g s) (trace : Trace) : Reachable g { s with trace }

theorem Reachable.inProgress (h : Reachable g s) : s.inProgress = [] := by
  induction h with
  | fresh generator trace => rfl
  | call _ a ih => exact a.inProgress_answer ih
  | bump _ ih => exact ih
  | write _ trace ih => exact ih

/-- In the course of some calls the output comes to the value: it is computed, or asked for and
answered. -/
def ComesTo (g : Graph) (s : State) (asked : List Asked) (node : Node) (pin : Pin) (v : Value) :
    Prop :=
  ((node.id, pin.id), v) ∈ computedAll g s asked ∨
    ∃ before a after, asked = before ++ a :: after ∧ a.call.origin g = .output node pin ∧
      (a.answer g (answerAll g s before)).1 = .ok v

theorem ComesTo.cached? {asked : List Asked} (h : ComesTo g s asked node pin v)
    (hs : s.inProgress = []) (hk : node.kind.operation?.isSome = true) (hp : pin.isExec = false) :
    (answerAll g s asked).cached? (node.id, pin.id) = some v := by
  rcases h with h | ⟨before, a, after, rfl, ho, ha⟩
  · exact ((adds_answerAll hs asked).1.cached?_iff _ _).mpr (.inl h)
  · have hbefore := (adds_answerAll (g := g) hs before).2
    have hanswer := a.call.answer_eq (a.toScene g) (answerAll g s before)
    rw [Asked.toScene, ho] at hanswer
    have hv := cached?_output (t := (a.answer g (answerAll g s before)).2)
      (immediate?_eq_none_iff.mpr ⟨hp, hk⟩) rfl (a.call.mem_nodes ho) hbefore
      (hanswer.symm.trans (Prod.ext ha rfl))
    obtain ⟨hafter, -⟩ := adds_answerAll (g := g) (a.inProgress_answer (g := g) hbefore) after
    rw [answerAll, List.foldl_append, List.foldl_cons]
    exact hafter.kept hv

/-- In a generation no output is computed twice, nor one that has a result already, whichever calls
are made and whether they end in a value or in a fault. Once an output has come to a value, every
later call for it is answered with that value and leaves all else as it was but for one hit more;
and so does every look at the output in the course of a later call. -/
theorem computed_once (hs : Reachable g s) (asked : List Asked) :
    ((computedAll g s asked).map Prod.fst).Nodup ∧
    (∀ e ∈ computedAll g s asked, s.cached? e.1 = none) ∧
    ∀ node pin v, node.kind.operation?.isSome = true → pin.isExec = false →
      ComesTo g s asked node pin v → ∀ (later : List Asked) (a : Asked),
        let u := answerAll g (answerAll g s asked) later
        (a.call.origin g = .output node pin →
          a.answer g u = (.ok v, { u with cacheHits := u.cacheHits + 1 })) ∧
        ∀ n t top below, Takes (a.toScene g) (a.begun g u) n (.running t top below) →
          ready (a.toScene g) t node pin = (.known v, { t with cacheHits := t.cacheHits + 1 }) := by
  obtain ⟨hadds, hp⟩ := adds_answerAll (g := g) hs.inProgress asked
  refine ⟨hadds.nodup, hadds.new, ?_⟩
  intro node pin v hk he hv later a u
  obtain ⟨hlater, hu⟩ := adds_answerAll (g := g) hp later
  have hcached : u.cached? (node.id, pin.id) = some v :=
    hlater.kept (hv.cached? hs.inProgress hk he)
  have hi : immediate? (a.toScene g) node pin = none := immediate?_eq_none_iff.mpr ⟨he, hk⟩
  constructor
  · intro ho
    have hanswer := a.call.answer_eq (a.toScene g) u
    rw [Asked.toScene, ho] at hanswer
    exact hanswer.trans (output_of_cached? hi rfl hcached)
  · intro n t top below ht
    exact ready_of_cached? hi rfl ((a.adds_takes hu ht).kept hcached)

namespace Entangled

def ask (id : String) : Asked := { bindings := {}, loops := {}, call := .evaluate id "result" }

def keys : List PinKey := [("text", "result"), ("sum", "result")]

/-- The sum computes the text on its way, which is not computed again when it is asked for. -/
theorem computed_once_text :
    Reachable graph beginning ∧ (computedAll graph beginning [ask "sum"]).map Prod.fst = keys ∧
    ∃ v, (ask "text").answer graph (answerAll graph beginning [ask "sum"]) =
      (.ok v, { answerAll graph beginning [ask "sum"] with
        cacheHits := (answerAll graph beginning [ask "sum"]).cacheHits + 1 }) := by
  have hkeys : (computedAll graph beginning [ask "sum"]).map Prod.fst = keys := by decide +kernel
  have hfresh : Reachable graph beginning := .fresh _ _
  have htext : (("text", "result") : PinKey) ∈
      (computedAll graph beginning [ask "sum"]).map Prod.fst := by
    rw [hkeys]
    exact List.mem_cons_self
  obtain ⟨⟨key, v⟩, hv, rfl⟩ := List.mem_map.mp htext
  obtain ⟨-, -, honce⟩ := computed_once hfresh [ask "sum"]
  have hanswer := honce text ⟨"result", "text", "Result", .string, .output⟩ v rfl rfl (.inl hv) []
    (ask "text")
  exact ⟨hfresh, hkeys, v, hanswer.1 rfl⟩

end Entangled

end NodeScript.Evaluation
