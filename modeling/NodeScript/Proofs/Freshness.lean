import NodeScript.Proofs.Visits

/-!
Whether the values that a run reads are up to date. A visit leaves results that are right as they
are, or begins a new generation, or ends a counting loop: then the index of the loop is zero from
there on, and no new generation begins.
-/

namespace NodeScript.Run

open Evaluation Meaning Relation

variable {setting : Setting} {node : Node} {s t u : State}

/-- From `s` to `t`, inputs have been read and right results have stayed right. -/
structure Reading (setting : Setting) (s t : State) : Prop where
  bindings : t.bindings = s.bindings
  generation : t.evaluation.generation = s.evaluation.generation
  index : ∀ f ∈ setting.graph.nodes, f.kind = .forLoop →
    t.loops.currentIndex f.id = s.loops.currentIndex f.id
  consistent : ∀ (hg : setting.graph.Acyclic) (good : Node → Prop),
    (∀ m n, setting.graph.Feeds m n → good n → good m) →
    Consistent (s.scene setting) hg good s.evaluation →
    Consistent (t.scene setting) hg good t.evaluation

structure Renewed (setting : Setting) (s t : State) : Prop where
  generation : t.evaluation.generation = s.evaluation.generation + 1
  consistent : ∀ (hg : setting.graph.Acyclic) (good : Node → Prop),
    Consistent (s.scene setting) hg (fun _ => False) s.evaluation →
    Consistent (t.scene setting) hg good t.evaluation

structure Ended (s t : State) : Prop where
  bindings : t.bindings = s.bindings
  generation : t.evaluation.generation = s.evaluation.generation
  cache : t.evaluation.cache = s.evaluation.cache
  inProgress : t.evaluation.inProgress = s.evaluation.inProgress
  index : ∀ id, t.loops.currentIndex id = s.loops.currentIndex id ∨ t.loops.currentIndex id = 0

def Visited (setting : Setting) (s t : State) : Prop :=
  Reading setting s t ∨ Renewed setting s t ∨ Ended s t

theorem consistent_of_same {hg : setting.graph.Acyclic} {good : Node → Prop}
    (h : Consistent (s.scene setting) hg good s.evaluation) (hb : t.bindings = s.bindings)
    (hn : t.evaluation.generation = s.evaluation.generation)
    (hc : t.evaluation.cache = s.evaluation.cache)
    (hp : t.evaluation.inProgress = s.evaluation.inProgress)
    (hi : ∀ m, good m → s.evaluation.HasResult m → ∀ f, setting.graph.DependsOnLoop m f →
      s.loops.currentIndex f.id = t.loops.currentIndex f.id) :
    Consistent (t.scene setting) hg good t.evaluation := by
  have ht := h.changeLoops t.loops hi
  cases t
  subst hb
  exact ht.congr hp hc hn

theorem Reading.of_same (hb : t.bindings = s.bindings)
    (hn : t.evaluation.generation = s.evaluation.generation)
    (hc : t.evaluation.cache = s.evaluation.cache)
    (hp : t.evaluation.inProgress = s.evaluation.inProgress)
    (hi : ∀ f ∈ setting.graph.nodes, f.kind = .forLoop →
      t.loops.currentIndex f.id = s.loops.currentIndex f.id) : Reading setting s t :=
  ⟨hb, hn, hi, fun _ _ _ h => consistent_of_same h hb hn hc hp fun _ _ _ f hf =>
    (hi f hf.isLoop.1 hf.isLoop.2).symm⟩

theorem readStable_reading (hr : setting.graph.RandomFree) :
    ReadStable setting (Reading setting) where
  refl _ := .of_same rfl rfl rfl rfl fun _ _ _ => rfl
  trans hst htu :=
    ⟨htu.bindings.trans hst.bindings, htu.generation.trans hst.generation,
      fun f hf hk => (htu.index f hf hk).trans (hst.index f hf hk),
      fun hg good hgood h => htu.consistent hg good hgood (hst.consistent hg good hgood h)⟩
  read s node label := by
    have hc := contemporary_inputValue (s.scene setting) s.evaluation node label
    refine ⟨rfl, hc.1, fun _ _ _ => rfl, fun hg good hgood h => ?_⟩
    exact (inputValue_answers hr hgood h node label).consistent
  trace _ _ _ := .of_same rfl rfl rfl rfl fun _ _ _ => rfl

theorem Reading.renewed (h : Reading setting s u) (ht : t.evaluation = u.evaluation.bump) :
    Renewed setting s t := by
  constructor
  · rw [ht, State.bump, h.generation]
  · intro hg good hs
    have hu := h.consistent hg (fun _ => False) (fun _ _ _ => id) hs
    rw [ht]
    exact hu.bump

theorem afterLoopStep_cases (setting : Setting) (node : Node) (outcome : LoopStep) (s : State) :
    (afterLoopStep setting node outcome s).2 = { s with evaluation := s.evaluation.bump } ∨
      ∃ trace, (afterLoopStep setting node outcome s).2 =
        { s with loops := s.loops.finish node.id, evaluation := { s.evaluation with trace } } := by
  cases outcome with
  | body => exact .inl rfl
  | completed => exact .inr ⟨s.evaluation.trace, rfl⟩
  | aborted =>
    right
    unfold afterLoopStep
    dsimp only
    cases hp : setting.config.maxLoopIterations.plain with
    | error fault => exact ⟨s.evaluation.trace, rfl⟩
    | ok shown => exact ⟨_, rfl⟩

def Setting.Limited (setting : Setting) : Prop :=
  setting.config.maxLoopIterations.comparable?.isSome = true

theorem Setting.Limited.reachedBy (h : setting.Limited) (count : Nat) :
    ∃ b, setting.config.maxLoopIterations.reachedBy count = .ok b := by
  obtain ⟨limit, hl⟩ := Option.isSome_iff_exists.mp h
  exact ⟨limit.le (.int count), by rw [Value.reachedBy, hl]⟩

theorem Setting.Limited.advance (h : setting.Limited) (state : ForState) :
    ∃ x, state.advance setting.config.maxLoopIterations = .ok x := by
  obtain ⟨b, hb⟩ := h.reachedBy state.iterations
  unfold ForState.advance
  rw [hb]
  cases state.pastEnd <;> cases b <;> exact ⟨_, rfl⟩

theorem Setting.Limited.advanceWhile (h : setting.Limited) (condition : Bool) (iterations : Nat) :
    ∃ x, NodeScript.advanceWhile setting.config.maxLoopIterations condition iterations = .ok x := by
  obtain ⟨b, hb⟩ := h.reachedBy iterations
  unfold NodeScript.advanceWhile
  rw [hb]
  cases condition <;> cases b <;> exact ⟨_, rfl⟩

theorem proceed_cases (hl : setting.Limited) (node : Node) (state : ForState) (s : State) :
    (proceed setting node state s).2.evaluation = s.evaluation.bump ∨
      ∃ trace loops, (∀ id ≠ node.id, loops.currentIndex id = s.loops.currentIndex id) ∧
        loops.currentIndex node.id = 0 ∧ (proceed setting node state s).2 =
          { s with loops, evaluation := { s.evaluation with trace } } := by
  obtain ⟨⟨outcome, state'⟩, hx⟩ := hl.advance state
  rw [proceed_eq hx]
  rcases afterLoopStep_cases setting node outcome
    { s with loops := s.loops.startFor node.id state' } with h | ⟨trace, h⟩
  · left
    rw [h]
  · right
    refine ⟨trace, _, fun id hid => ?_, Loops.currentIndex_finish_self _ _, h⟩
    rw [Loops.currentIndex_finish_of_ne _ hid, Loops.currentIndex_startFor_of_ne _ hid]

theorem visited_visitForLoop (hr : setting.graph.RandomFree) (hl : setting.Limited)
    (hn : node ∈ setting.graph.nodes) (hk : node.kind = .forLoop) (s : State) :
    Visited setting s (visitForLoop setting node s).2 := by
  have hread := readStable_reading hr
  rw [visitForLoop_apply]
  cases hc : s.loops.counting.get? node.id with
  | some state =>
    rcases proceed_cases hl node state s with h | ⟨trace, loops, hne, h0, h⟩
    · exact .inr (.inl ((hread.refl s).renewed h))
    · right
      right
      dsimp only
      rw [h]
      refine ⟨rfl, rfl, rfl, rfl, fun id => ?_⟩
      by_cases hid : id = node.id
      · exact .inr (hid ▸ h0)
      · exact .inl (hne id hid)
  | none =>
    have hs : s.loops.currentIndex node.id = 0 := by rw [Loops.currentIndex, hc]; rfl
    have hb := (hread.ensures_beginLoop node s).1
    rcases hx : beginLoop setting node s with ⟨fault | _ | state, u⟩
    · rw [hx] at hb
      exact .inl hb
    · rw [hx] at hb
      exact .inl hb
    · rw [hx] at hb
      rcases proceed_cases hl node state { u with loops := u.loops.startFor node.id state } with
        h | ⟨trace, loops, hne, h0, h⟩
      · exact .inr (.inl (hb.renewed h))
      · left
        dsimp only
        rw [h]
        refine hread.trans hb (.of_same rfl rfl rfl rfl fun f hf hkf => ?_)
        by_cases hid : f.id = node.id
        · rw [hid, hb.index node hn hk, hs]
          exact h0
        · rw [← Loops.currentIndex_startFor_of_ne u.loops hid state]
          exact hne f.id hid

/-- The action reads, and may begin a new generation in the end. -/
def Steadily {α : Type} (setting : Setting) (a : Action α) : Prop :=
  ∀ s, Reading setting s (a s).2 ∨ Renewed setting s (a s).2

theorem Steadily.bind {α β : Type} {P : α → Prop} (hr : setting.graph.RandomFree) {a : Action α}
    {f : α → Action β} (ha : Ensures (Reading setting) P a) (hf : ∀ x, Steadily setting (f x)) :
    Steadily setting (a >>= f) := by
  intro s
  have hs := (ha s).1
  rw [bind_apply]
  rcases he : a s with ⟨fault | x, t⟩
  · rw [he] at hs
    exact .inl hs
  · rw [he] at hs
    rcases hf x t with ht | ht
    · exact .inl ((readStable_reading hr).trans hs ht)
    · refine .inr ⟨by rw [ht.generation, hs.generation], fun hg good h => ?_⟩
      exact ht.consistent hg good (hs.consistent hg _ (fun _ _ _ => id) h)

theorem steadily_pure {α : Type} (hr : setting.graph.RandomFree) (x : α) :
    Steadily setting (pure x : Action α) := fun s => .inl ((readStable_reading hr).refl s)

theorem steadily_visitWhileLoop (hr : setting.graph.RandomFree) (hl : setting.Limited)
    (hn : node ∈ setting.graph.nodes) (hk : node.kind = .whileLoop) :
    Steadily setting (visitWhileLoop setting node) := by
  intro s
  have hread := readStable_reading hr
  let s' : State := { s with loops := s.loops.setWhile node.id (s.loops.iterations node.id) }
  have hs : Reading setting s s' := .of_same rfl rfl rfl rfl fun _ _ _ => rfl
  have hb := hread.trans hs (hread.ensures_readCondition node s').1
  rw [visitWhileLoop_apply]
  rcases hx : readCondition setting node s' with ⟨fault | condition, u⟩
  · rw [hx] at hb
    exact .inl hb
  · rw [hx] at hb
    obtain ⟨⟨outcome, iterations⟩, ha⟩ := hl.advanceWhile condition (s'.loops.iterations node.id)
    dsimp only
    rw [ha]
    dsimp only
    rcases afterLoopStep_cases setting node outcome
      { u with loops := u.loops.setWhile node.id iterations } with h | ⟨trace, h⟩
    · rw [h]
      exact .inr (hb.renewed rfl)
    · rw [h]
      refine .inl (hread.trans hb (.of_same rfl rfl rfl rfl fun f hf hkf => ?_))
      have hid : f.id ≠ node.id := by
        intro hid
        rw [Graph.eq_of_id_eq hf hn hid, hk] at hkf
        cases hkf
      exact Loops.currentIndex_finish_of_ne _ hid

theorem steadily_behaviour (hr : setting.graph.RandomFree) (hl : setting.Limited)
    (hn : node ∈ setting.graph.nodes) (hk : node.kind ≠ .forLoop) :
    Steadily setting (behaviour setting node) := by
  have hread := readStable_reading hr
  unfold behaviour
  dsimp only
  split
  · exact steadily_pure hr _
  · exact steadily_pure hr _
  · refine .bind hr (hread.ensures_read node _) fun v => ?_
    refine .bind hr (hread.ensures_lift _) fun text => ?_
    exact .bind hr (hread.ensures_trace rfl) fun _ => steadily_pure hr _
  · refine .bind hr (hread.ensures_variableName node) fun name => ?_
    split
    · refine .bind hr (hread.ensures_read node _) fun v => ?_
      exact fun s => .inr ((hread.refl s).renewed rfl)
    · exact steadily_pure hr _
  · refine .bind hr (hread.ensures_variableName node) fun name => ?_
    split
    · exact fun s => .inr ((hread.refl s).renewed rfl)
    · exact steadily_pure hr _
  · exact .bind hr (hread.ensures_readCondition node) fun condition => steadily_pure hr _
  · rename_i h
    exact absurd h hk
  · rename_i h
    exact steadily_visitWhileLoop hr hl hn h
  · exact steadily_pure hr _

theorem visited_behaviour (hr : setting.graph.RandomFree) (hl : setting.Limited)
    (hn : node ∈ setting.graph.nodes) (s : State) :
    Visited setting s (behaviour setting node s).2 := by
  by_cases hk : node.kind = .forLoop
  · rw [behaviour_of_forLoop hk]
    exact visited_visitForLoop hr hl hn hk s
  · rcases steadily_behaviour hr hl hn hk s with h | h
    · exact .inl h
    · exact .inr (.inl h)

/-- The states differ only in what neither results nor values depend on. -/
structure Alike (s t : State) : Prop where
  bindings : t.bindings = s.bindings
  loops : t.loops = s.loops
  generation : t.evaluation.generation = s.evaluation.generation
  cache : t.evaluation.cache = s.evaluation.cache
  inProgress : t.evaluation.inProgress = s.evaluation.inProgress

theorem Alike.reading (h : Alike s t) : Reading setting s t :=
  .of_same h.bindings h.generation h.cache h.inProgress fun _ _ _ => by rw [h.loops]

theorem Alike.consistent (h : Alike s t) {hg : setting.graph.Acyclic} {good : Node → Prop}
    (hs : Consistent (s.scene setting) hg good s.evaluation) :
    Consistent (t.scene setting) hg good t.evaluation := by
  obtain ⟨hb, hl, hn, hc, hp⟩ := h
  exact consistent_of_same hs hb hn hc hp fun _ _ _ _ _ => by rw [hl]

theorem Visited.congr (hr : setting.graph.RandomFree) {s' t' : State} (hs : Alike s s')
    (h : Visited setting s' t') (ht : Alike t' t) : Visited setting s t := by
  have hread := readStable_reading hr
  rcases h with h | h | h
  · exact .inl (hread.trans hs.reading (hread.trans h ht.reading))
  · refine .inr (.inl ⟨by rw [ht.generation, h.generation, hs.generation], fun hg good hc => ?_⟩)
    exact ht.consistent (h.consistent hg good (hs.consistent hc))
  · refine .inr (.inr ⟨by rw [ht.bindings, h.bindings, hs.bindings],
      by rw [ht.generation, h.generation, hs.generation], by rw [ht.cache, h.cache, hs.cache],
      by rw [ht.inProgress, h.inProgress, hs.inProgress], fun id => ?_⟩)
    rw [ht.loops, ← hs.loops]
    exact h.index id

theorem alike_visit (setting : Setting) (node : Node) (s : State) :
    Alike (behaviour setting node s).2 (visit setting node s) := by
  unfold visit
  rw [ExceptT.run]
  rcases behaviour setting node s with ⟨fault | next, t⟩ <;> exact ⟨rfl, rfl, rfl, rfl, rfl⟩

theorem visited_step (hr : setting.graph.RandomFree) (hl : setting.Limited)
    (hq : InGraph setting s.queue) : Visited setting s (step setting s) := by
  unfold step
  split
  · exact .inl ((readStable_reading hr).refl s)
  · rename_i node queue he
    let s' : State := { s with queue, steps := s.steps + 1 }
    have hs : Alike s s' := ⟨rfl, rfl, rfl, rfl, rfl⟩
    have hn : node ∈ setting.graph.nodes := hq node (he ▸ List.mem_cons_self)
    exact .congr hr hs (visited_behaviour hr hl hn s') (alike_visit setting node s')

/-- As long as there has been a result for `m` in the present generation, the loops that the value
of `m` depends on have shown the same indices. -/
def Settled (setting : Setting) (history : Nat → State) (n : Nat) (m : Node) : Prop :=
  ∀ i ≤ n, (history i).evaluation.generation = (history n).evaluation.generation →
    (history i).evaluation.HasResult m → ∀ f, setting.graph.DependsOnLoop m f →
      (history i).loops.currentIndex f.id = (history n).loops.currentIndex f.id

def SettledBelow (setting : Setting) (history : Nat → State) (n : Nat) (m : Node) : Prop :=
  ∀ k, ReflTransGen setting.graph.Feeds k m → Settled setting history n k

theorem SettledBelow.of_feeds {history : Nat → State} {n : Nat} {m k : Node}
    (hf : setting.graph.Feeds m k) (h : SettledBelow setting history n k) :
    SettledBelow setting history n m := fun j hj => h j (hj.tail hf)

section

variable {history : Nat → State} (hv : ∀ i, Visited setting (history i) (history (i + 1)))

include hv

theorem generation_le_succ (i : Nat) :
    (history i).evaluation.generation ≤ (history (i + 1)).evaluation.generation := by
  rcases hv i with h | h | h
  · exact h.generation.ge
  · exact h.generation ▸ Nat.le_succ _
  · exact h.generation.ge

/-- Within a generation an index changes to zero at most. -/
theorem index_eq_or_zero {i n : Nat} (hin : i ≤ n)
    (hgen : (history i).evaluation.generation = (history n).evaluation.generation) {f : Node}
    (hf : f ∈ setting.graph.nodes) (hk : f.kind = .forLoop) :
    (history n).loops.currentIndex f.id = (history i).loops.currentIndex f.id ∨
      (history n).loops.currentIndex f.id = 0 := by
  induction n, hin using Nat.le_induction with
  | base => exact .inl rfl
  | succ n hin ih =>
    have hmono : Monotone fun i => (history i).evaluation.generation :=
      monotone_nat_of_le_succ (generation_le_succ hv)
    have hle : (history i).evaluation.generation ≤ (history n).evaluation.generation := hmono hin
    have hs := generation_le_succ hv n
    specialize ih (by omega)
    rcases hv n with h | h | h
    · rw [h.index f hf hk]
      exact ih
    · have := h.generation
      omega
    · rcases h.index f.id with hi | hi
      · rw [hi]
        exact ih
      · exact .inr hi

/-- At every moment the results for settled nodes are right. -/
theorem consistent_history {hg : setting.graph.Acyclic}
    (h : Consistent ((history 0).scene setting) hg (fun _ => True) (history 0).evaluation)
    (n : Nat) :
    Consistent ((history n).scene setting) hg (SettledBelow setting history n)
      (history n).evaluation := by
  induction n with
  | zero => exact h.mono fun _ _ => trivial
  | succ n ih =>
    -- What is settled after a visit without a new generation was settled before it.
    have hback (hgen : (history (n + 1)).evaluation.generation = (history n).evaluation.generation)
        (hi : ∀ i ≤ n, (history i).evaluation.generation = (history n).evaluation.generation →
          ∀ f ∈ setting.graph.nodes, f.kind = .forLoop →
            (history i).loops.currentIndex f.id = (history (n + 1)).loops.currentIndex f.id →
            (history i).loops.currentIndex f.id = (history n).loops.currentIndex f.id) (m : Node)
        (hm : SettledBelow setting history (n + 1) m) : SettledBelow setting history n m := by
      intro k hk i hin he hres f hf
      have hset := hm k hk i (by omega) (by rw [he, hgen]) hres f hf
      exact hi i hin he f hf.isLoop.1 hf.isLoop.2 hset
    rcases hv n with hr | hr | hr
    · have hc := ih.mono (hback hr.generation fun i _ _ f hf hk h => by rw [h, hr.index f hf hk])
      exact hr.consistent hg _ (fun m k hf hk => hk.of_feeds hf) hc
    · exact hr.consistent hg _ (ih.mono fun _ => False.elim)
    · -- An index that is now as it was then was the same in between, as it can only become zero.
      have hc := ih.mono (hback hr.generation fun i hin he f hf hk h => by
        rcases index_eq_or_zero hv hin he hf hk with h' | h'
        · exact h'.symm
        · rcases hr.index f.id with h'' | h''
          · rw [h, h'']
          · rw [h, h'', h'])
      exact consistent_of_same hc hr.bindings hr.generation hr.cache hr.inProgress
        fun m hm hres f hf => hm m .refl n (Nat.le_succ n) hr.generation.symm hres f hf

end

end NodeScript.Run
