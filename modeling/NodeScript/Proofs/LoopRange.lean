import NodeScript.Proofs.LoopVisits

namespace NodeScript.Run

section

variable {setting : Setting} {node : Node} {s t : State} {id : Text} {k n : Nat}
  {start last step limit : Int} {state : ForState}

def stepOf (start last : Int) (v : Value) : Int :=
  (givenStep? v).getD (ForState.toward start last)

theorem stepOf_ne_zero (start last : Int) (v : Value) : stepOf start last v ≠ 0 := by
  unfold stepOf
  cases h : givenStep? v with
  | none =>
    rw [Option.getD_none, ForState.toward]
    split <;> decide
  | some step =>
    rw [Option.getD_some]
    unfold givenStep? at h
    split at h
    · cases h
      decide
    · exact of_decide_eq_true (Option.filter_eq_some_iff.mp h).2

/-- A visit of a counting loop that begins in `s` reads these bounds and this step. -/
def ReadsBounds (setting : Setting) (node : Node) (s : State) (start last step : Int) : Prop :=
  ∃ first final v t u, read setting node "Start" s = (.ok first, t) ∧
    first.toInteger? = some start ∧ read setting node "End" t = (.ok final, u) ∧
    final.toInteger? = some last ∧ (read setting node "Step" u).1 = .ok v ∧
    step = stepOf start last v

theorem readsBounds_of_beginLoop (h : beginLoop setting node s = (.ok (some state), t)) :
    ∃ start last step, ReadsBounds setting node s start last step ∧
      state = .start start last step := by
  unfold beginLoop at h
  obtain ⟨first, u, hf, h⟩ := exists_of_bind_eq_ok h
  obtain ⟨final, v, he, h⟩ := exists_of_bind_eq_ok h
  match hi : first.toInteger?, hj : final.toInteger? with
  | some start, some last =>
    rw [hi, hj] at h
    obtain ⟨rawStep, w, hs, h⟩ := exists_of_bind_eq_ok h
    have hbounds : ReadsBounds setting node s start last (stepOf start last rawStep) :=
      ⟨first, final, rawStep, u, v, hf, hi, he, hj, by rw [hs], rfl⟩
    refine ⟨start, last, _, hbounds, ?_⟩
    cases hg : givenStep? rawStep with
    | some step =>
      rw [hg] at h
      cases h
      rw [stepOf, hg]
      rfl
    | none =>
      rw [hg] at h
      obtain ⟨_, _, -, h⟩ := exists_of_bind_eq_ok h
      obtain ⟨_, _, -, h⟩ := exists_of_bind_eq_ok h
      cases h
      rw [stepOf, hg]
      rfl
  | none, _ | some _, none =>
    simp only [hi, hj] at h
    obtain ⟨_, _, -, h⟩ := exists_of_bind_eq_ok h
    obtain ⟨_, _, -, h⟩ := exists_of_bind_eq_ok h
    obtain ⟨_, _, -, h⟩ := exists_of_bind_eq_ok h
    cases h

/-- Visit number `k` began the loop with these bounds and this step, and the loop has been under
way since. -/
structure CountsSince (setting : Setting) (s : State) (k n : Nat) (id : Text)
    (start last step : Int) : Prop where
  lt : k < n
  begun : ∃ node, visited? setting s k = some node ∧ node.id = id ∧ node.kind = .forLoop ∧
    ReadsBounds setting node (entering setting s k) start last step
  idle : (drain setting k s).loops.counting.get? id = none
  kept : ∀ i, k < i → i ≤ n → (drain setting i s).loops.counting.contains id = true

theorem CountsSince.succ (h : CountsSince setting s k n id start last step)
    (hc : (drain setting (n + 1) s).loops.counting.get? id = some state) :
    CountsSince setting s k (n + 1) id start last step := by
  refine ⟨by have := h.lt; omega, h.begun, h.idle, fun i hk hi => ?_⟩
  by_cases hn : i = n + 1
  · rw [hn, OrderedMap.contains, hc]
    rfl
  · exact h.kept i hk (by omega)

theorem limited_of_int (hl : setting.config.maxLoopIterations = .int limit) : setting.Limited := by
  rw [Setting.Limited, hl]
  rfl

/-- A counting loop under way is in the state after some of its iterations. -/
theorem countsSince_of_counting (hs : Begins setting s)
    (hl : setting.config.maxLoopIterations = .int limit)
    (h : (drain setting n s).loops.counting.get? id = some state) :
    ∃ k start last step i, CountsSince setting s k n id start last step ∧
      state = .after start last step i ∧ state.InRange limit start last step := by
  have hg := hs.inGraph
  induction n generalizing state with
  | zero => simp [drain, hs.loops] at h
  | succ n ih =>
    have hkept (hc : (drain setting n s).loops.counting.get? id = some state) :
        ∃ k start last step i, CountsSince setting s k (n + 1) id start last step ∧
          state = .after start last step i ∧ state.InRange limit start last step := by
      obtain ⟨k, start, last, step, i, hk, hr⟩ := ih hc
      exact ⟨k, start, last, step, i, hk.succ h, hr⟩
    cases hv : visited? setting s n with
    | none =>
      rw [drain_succ_of_visited?_eq_none hv] at h
      exact hkept h
    | some node =>
      have hvisit := loopVisit_drain (limited_of_int hl) hg hv
      by_cases hid : id = node.id
      · subst hid
        cases hvisit with
        | untouched hw hf he | repeated hk he hq | unread hk hr hf he =>
          refine hkept ?_
          rw [he] at h
          exact h
        | @counted before after hk hr ha he hq =>
          rw [hl] at ha
          have hafter : after = state := by
            rw [he] at h
            simpa [Loops.startFor] using h
          subst hafter
          cases hr with
          | kept hb =>
            obtain ⟨k, start, last, step, i, hk, rfl, -⟩ := ih hb
            obtain ⟨hstate, hrange⟩ := ForState.inRange_of_advance ha
            exact ⟨k, start, last, step, i + 1, hk.succ h, hstate, hrange⟩
          | begun hn hb =>
            obtain ⟨start, last, step, hbounds, rfl⟩ := readsBounds_of_beginLoop hb
            rw [← ForState.after_zero] at ha
            obtain ⟨hstate, hrange⟩ := ForState.inRange_of_advance ha
            refine ⟨n, start, last, step, 1, ⟨by omega, ⟨node, hv, rfl, hk, hbounds⟩, hn, ?_⟩,
              hstate, hrange⟩
            intro i hlt hle
            rw [show i = n + 1 by omega, OrderedMap.contains, h]
            rfl
        | ended he =>
          rw [he] at h
          simp [Loops.finish] at h
      · rw [(hvisit.get?_of_ne hid).1] at h
        exact hkept h

theorem visited?_of_counting_ne (hs : Begins setting s)
    (hl : setting.config.maxLoopIterations = .int limit)
    (h : (drain setting (n + 1) s).loops.counting.get? id ≠
      (drain setting n s).loops.counting.get? id) :
    ∃ node, visited? setting s n = some node ∧ node.id = id ∧ node.kind = .forLoop := by
  have hg := hs.inGraph
  cases hv : visited? setting s n with
  | none => exact absurd (by rw [drain_succ_of_visited?_eq_none hv]) h
  | some node =>
    have hvisit := loopVisit_drain (limited_of_int hl) hg hv
    by_cases hid : id = node.id
    · subst hid
      refine ⟨node, rfl, rfl, ?_⟩
      cases hvisit with
      | untouched hw hf he | repeated hk he hq | unread hk hr hf he =>
        rw [he] at h
        exact absurd rfl h
      | counted hk hr ha he hq => exact hk
      | ended he =>
        rw [he, Loops.finish, OrderedMap.get?_erase_self] at h
        obtain ⟨state, hc⟩ := Option.ne_none_iff_exists'.mp (Ne.symm h)
        obtain ⟨k, start, last, step, i, hk, -⟩ := countsSince_of_counting hs hl hc
        obtain ⟨m, hm, hid, hf, -⟩ := hk.begun
        rwa [Graph.eq_of_id_eq (mem_nodes_of_visited? hg hm) (mem_nodes_of_visited? hg hv) hid]
          at hf
    · exact absurd (hvisit.get?_of_ne hid).1 h

/-- Each counting loop under way has been so since a visit that read its bounds and its step, is in
range of them, and changes only when it is visited. -/
theorem counting_inRange (hs : Begins setting s)
    (hl : setting.config.maxLoopIterations = .int limit) (n : Nat) (id : Text) :
    (∀ state, (drain setting n s).loops.counting.get? id = some state →
      ∃ k start last step, CountsSince setting s k n id start last step ∧ step ≠ 0 ∧
        state.InRange limit start last step) ∧
    ((drain setting (n + 1) s).loops.counting.get? id ≠
        (drain setting n s).loops.counting.get? id →
      ∃ node, visited? setting s n = some node ∧ node.id = id ∧ node.kind = .forLoop) := by
  refine ⟨fun state h => ?_, visited?_of_counting_ne hs hl⟩
  obtain ⟨k, start, last, step, i, hk, -, hrange⟩ := countsSince_of_counting hs hl h
  obtain ⟨node, -, -, -, first, final, v, t, u, -, -, -, -, -, hstep⟩ := hk.begun
  exact ⟨k, start, last, step, hk, hstep ▸ stepOf_ne_zero start last v, hrange⟩

end

namespace Countdown

open Sample

def loop : Node :=
  { id := "loop"
    kind := .forLoop
    properties := ⟨[("start", .int 5), ("end", .int 1), ("step", .int 2)]⟩ }

def graph : Graph := .ofLists [entry, loop] [⟨"1", "entry", "then", "loop", "in", .exec⟩]

/-- In its third iteration the loop has come to one. -/
theorem counting_inRange_third :
    Begins (setting graph) opening ∧ (setting graph).config.maxLoopIterations = .int 1000 ∧
      (drain (setting graph) 4 opening).loops.counting.get? "loop" = some ⟨-1, 1, -2, -1, 3, 1⟩ ∧
      ∃ k first last step, CountsSince (setting graph) opening k 4 "loop" first last step ∧
        step ≠ 0 ∧ ForState.InRange 1000 first last step ⟨-1, 1, -2, -1, 3, 1⟩ :=
  ⟨begins_opening rfl, rfl, rfl, (counting_inRange (begins_opening rfl) rfl 4 "loop").1 _ rfl⟩

end Countdown

end NodeScript.Run
