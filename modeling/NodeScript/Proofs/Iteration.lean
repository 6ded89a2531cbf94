import NodeScript.Proofs.Counting

namespace NodeScript

namespace ForState

variable {start last step : Int} {c k : Nat}

def index (start last step : Int) (k : Nat) : Int :=
  start + k * (step.natAbs * toward start last)

def permitted (start last step : Int) (c : Nat) : Nat := min (count start last step) c

def ending (start last step : Int) (c : Nat) : LoopStep :=
  if count start last step ≤ c then .completed else .aborted

theorem advance_of_lt_permitted (hstep : step ≠ 0) (hk : k < permitted start last step c) :
    (after start last step k).advance (.int c) = .ok (.body, after start last step (k + 1)) := by
  unfold permitted at hk
  rw [advance_after hstep, if_neg (by omega), if_neg (by omega)]

theorem advance_permitted (hstep : step ≠ 0) :
    (after start last step (permitted start last step c)).advance (.int c) =
      .ok (ending start last step c, after start last step (permitted start last step c)) := by
  unfold permitted ending
  rw [advance_after hstep]
  -- If the range is as long as the limit, its end is noticed first.
  by_cases hc : count start last step ≤ c
  · rw [if_pos (by omega), if_pos hc]
  · rw [if_neg (by omega), if_pos (by omega), if_neg hc]

/-- The iterations are those whose index is in range. -/
theorem lt_count_iff (hstep : step ≠ 0) (k : Nat) :
    k < count start last step ↔
      min start last ≤ index start last step k ∧ index start last step k ≤ max start last := by
  have hpast : (after start last step k).pastEnd = true ↔ count start last step ≤ k :=
    pastEnd_after_iff hstep
  constructor
  · intro hk
    refine next_after_mem ?_
    rw [Bool.eq_false_iff, ne_eq, hpast]
    omega
  · rintro ⟨hmin, hmax⟩
    by_contra hk
    have hp := hpast.mpr (not_lt.mp hk)
    change (if 0 < toward start last then decide (last < index start last step k)
      else decide (index start last step k < last)) = true at hp
    by_cases hle : start ≤ last
    · rw [show toward start last = 1 from if_pos hle, if_pos (by decide), decide_eq_true_eq] at hp
      omega
    · rw [show toward start last = -1 from if_neg hle, if_neg (by decide), decide_eq_true_eq] at hp
      omega

end ForState

namespace Loops

open ForState

/-- A visit of the counting loop `id`: its state moves on and is kept. Nothing happens if the loop
is not under way. -/
def visit (limit : Value) (id : Text) (ls : Loops) : Except Fault (Option LoopStep × Loops) :=
  match ls.counting.get? id with
  | none => .ok (none, ls)
  | some s => (s.advance limit).map fun r => (some r.1, ls.startFor id r.2)

def visits (limit : Value) (id : Text) :
    Nat → Loops → Except Fault (List (Option LoopStep × Int) × Loops)
  | 0, ls => .ok ([], ls)
  | n + 1, ls =>
    (ls.visit limit id).bind fun r =>
      (visits limit id n r.2).map fun h => ((r.1, r.2.currentIndex id) :: h.1, h.2)

section

variable {limit : Value} {id : Text} {ls final : Loops} {s t : ForState} {outcome : LoopStep}
  {n : Nat} {history : List (Option LoopStep × Int)}

theorem currentIndex_startFor_self (ls : Loops) (id : Text) (s : ForState) :
    (ls.startFor id s).currentIndex id = s.current := by
  rw [currentIndex, startFor, OrderedMap.get?_insert_self]
  rfl

theorem visit_startFor (h : s.advance limit = .ok (outcome, t)) :
    (ls.startFor id s).visit limit id = .ok (some outcome, ls.startFor id t) := by
  have hget : (ls.startFor id s).counting.get? id = some s := OrderedMap.get?_insert_self ..
  unfold visit
  rw [hget]
  dsimp only
  rw [h, ← startFor_startFor ls id s t]
  rfl

theorem visits_startFor_succ (h : s.advance limit = .ok (outcome, t))
    (hlater : visits limit id n (ls.startFor id t) = .ok (history, final)) :
    visits limit id (n + 1) (ls.startFor id s) =
      .ok ((some outcome, t.current) :: history, final) := by
  unfold visits
  rw [visit_startFor h]
  change Except.map _ (visits limit id n (ls.startFor id t)) = _
  rw [hlater, ← currentIndex_startFor_self ls id t]
  rfl

variable {start last step : Int} {c k m : Nat}

theorem visits_iterations (hstep : step ≠ 0) (hk : k + m ≤ permitted start last step c)
    (hlater : visits (.int c) id n (ls.startFor id (after start last step (k + m))) =
      .ok (history, final)) :
    visits (.int c) id (m + n) (ls.startFor id (after start last step k)) =
      .ok ((List.range' k m).map (fun j => (some .body, index start last step j)) ++ history,
        final) := by
  induction m generalizing k with
  | zero =>
    rw [Nat.zero_add]
    exact hlater
  | succ m ih =>
    have hindex : (after start last step (k + 1)).current = index start last step k := rfl
    rw [Nat.add_right_comm, List.range'_succ, List.map_cons, List.cons_append, ← hindex]
    refine visits_startFor_succ (advance_of_lt_permitted hstep (by omega)) (ih (by omega) ?_)
    rwa [Nat.add_assoc, Nat.add_comm 1]

theorem visits_ended (hstep : step ≠ 0) (ls : Loops) (id : Text) (n : Nat) :
    visits (.int c) id n (ls.startFor id (after start last step (permitted start last step c))) =
      .ok (List.replicate n (some (ending start last step c),
          index start last step (permitted start last step c - 1)),
        ls.startFor id (after start last step (permitted start last step c))) := by
  induction n with
  | zero => rfl
  | succ n ih => exact visits_startFor_succ (advance_permitted hstep) ih

/-- The whole course of a counting loop: with which indices it goes through its body, how it ends,
and that it stays so. -/
theorem visits_closed_form (hstep : step ≠ 0) (ls : Loops) (id : Text) (c n : Nat) :
    visits (.int c) id n (ls.startFor id (.start start last step)) =
      .ok ((List.range (min n (permitted start last step c))).map
          (fun k => (some .body, index start last step k)) ++
          List.replicate (n - permitted start last step c) (some (ending start last step c),
            index start last step (permitted start last step c - 1)),
        ls.startFor id (after start last step (min n (permitted start last step c)))) ∧
    ∀ k, k < count start last step ↔
      min start last ≤ index start last step k ∧ index start last step k ≤ max start last := by
  refine ⟨?_, lt_count_iff hstep⟩
  rw [← after_zero, List.range_eq_range']
  rcases Nat.le_total n (permitted start last step c) with hle | hle
  · rw [Nat.min_eq_left hle, Nat.sub_eq_zero_of_le hle]
    refine visits_iterations hstep (n := 0) (by rwa [Nat.zero_add]) ?_
    rw [Nat.zero_add]
    rfl
  · obtain ⟨r, rfl⟩ := Nat.exists_eq_add_of_le hle
    rw [Nat.min_eq_right hle, Nat.add_sub_cancel_left]
    refine visits_iterations hstep (by rw [Nat.zero_add]) ?_
    rw [Nat.zero_add]
    exact visits_ended hstep ls id r

end

/-- A loop that steps over its end, under a limit that it just meets. -/
theorem visits_closed_form_countdown :
    (2 : Int) ≠ 0 ∧
      visits (.int (3 : Nat)) "loop" 5 (startFor {} "loop" (.start 5 0 2)) =
        .ok ([(some .body, 5), (some .body, 3), (some .body, 1), (some .completed, 1),
          (some .completed, 1)], startFor {} "loop" (after 5 0 2 3)) ∧
      ∀ k, k < count 5 0 2 ↔ min 5 0 ≤ index 5 0 2 k ∧ index 5 0 2 k ≤ max 5 0 := by
  have hstep : (2 : Int) ≠ 0 := by decide
  exact ⟨hstep, visits_closed_form hstep {} "loop" 3 5⟩

end Loops

end NodeScript
