import NodeScript.Proofs.FloatOrder

/-!
Rounding to floats. Arithmetic cuts a significand that is too long, and keeps of the rest only how
it compares with one half. That is enough to find the nearest value that a float can have, and of
two equally near ones the one with the even significand.
-/

namespace NodeScript.Binary64

open Float.Model Float.Model.UnpackedFloat

/-- The values that floats would have if their exponents were not bounded above. -/
def Representable (r : ℚ) : Prop :=
  ∃ n e : ℤ, |n| ≤ 2 ^ 53 ∧ minExponent ≤ e ∧ r = n * 2 ^ e

/-- The value with this significand and this exponent is as near to `q` as any. If another one is
equally near, the significand is even. -/
structure Nearest (q : ℚ) (n e : ℤ) : Prop where
  canonical : Canonical n.natAbs e
  le : ∀ {r}, Representable r → |q - n * 2 ^ e| ≤ |q - r|
  even : ∀ {r}, Representable r → r ≠ n * 2 ^ e → |q - n * 2 ^ e| = |q - r| → Even n

theorem canonical_zero : Canonical 0 minExponent := ⟨by decide, le_rfl, .inr rfl⟩

theorem Canonical.abs_significand_lt {n e : ℤ} (h : Canonical n.natAbs e) : |n| < 2 ^ 53 := by
  have := h.lt
  rw [Int.abs_eq_natAbs]
  exact_mod_cast this

theorem Canonical.representable {n e : ℤ} (h : Canonical n.natAbs e) :
    Representable (n * 2 ^ e) :=
  ⟨n, e, h.abs_significand_lt.le, h.le, rfl⟩

theorem Representable.neg {r : ℚ} (h : Representable r) : Representable (-r) := by
  obtain ⟨n, e, hn, he, rfl⟩ := h
  exact ⟨-n, e, by rwa [abs_neg], he, by push_cast; ring⟩

namespace Canonical

variable {n e t : ℤ}

theorem abs_mul_lt (h : Canonical n.natAbs e) : |(n * 2 ^ e : ℚ)| < 2 ^ 53 * 2 ^ e := by
  have hpos : (0 : ℚ) < 2 ^ e := zpow_pos two_pos e
  rw [abs_mul, abs_of_pos hpos]
  gcongr
  exact_mod_cast h.abs_significand_lt

/-- The larger the value, the larger is the exponent. -/
theorem le_exponent (h : Canonical n.natAbs e) (ht : 2 ^ 52 * 2 ^ t ≤ |(n * 2 ^ e : ℚ)|) :
    t ≤ e := by
  have hpower : (2 : ℚ) ^ (52 + t) < 2 ^ (53 + e) := by
    rw [zpow_add₀ two_ne_zero, zpow_add₀ two_ne_zero]
    exact ht.trans_lt h.abs_mul_lt
  have hlt := (zpow_lt_zpow_iff_right₀ one_lt_two).mp hpower
  omega

end Canonical

theorem nearest_self {n e : ℤ} (h : Canonical n.natAbs e) : Nearest (n * 2 ^ e) n e where
  canonical := h
  le _ := by
    rw [sub_self, abs_zero]
    exact abs_nonneg _
  even _ hne heq := by
    rw [sub_self, abs_zero, eq_comm, abs_eq_zero, sub_eq_zero] at heq
    exact absurd heq.symm hne

theorem Nearest.neg {q : ℚ} {n e : ℤ} (h : Nearest q n e) : Nearest (-q) (-n) e := by
  have hflip (r : ℚ) : |-q - r| = |q - -r| := by
    rw [← abs_neg]
    congr 1
    ring
  have hvalue : -(((-n : ℤ) : ℚ) * 2 ^ e) = n * 2 ^ e := by push_cast; ring
  refine ⟨by rw [Int.natAbs_neg]; exact h.canonical, fun hr => ?_, fun {r} hr hne heq => ?_⟩
  · rw [hflip, hflip, hvalue]
    exact h.le hr.neg
  · rw [hflip, hflip, hvalue] at heq
    refine (h.even hr.neg (fun h' => hne ?_) heq).neg
    rw [← neg_inj, h', hvalue]

namespace Nearest

variable {q r : ℚ} {n e : ℤ}

theorem eq_of_representable (h : Nearest q n e) (hq : Representable q) : (n * 2 ^ e : ℚ) = q := by
  have hle := h.le hq
  rw [sub_self, abs_zero] at hle
  exact (sub_eq_zero.mp (abs_nonpos_iff.mp hle)).symm

theorem le_of_le (h : Nearest q n e) (hr : Representable r) (hle : q ≤ r) : n * 2 ^ e ≤ r := by
  by_contra hlt
  have hnear := h.le hr
  rw [abs_of_nonpos (by linarith), abs_of_nonpos (by linarith)] at hnear
  linarith

theorem ge_of_ge (h : Nearest q n e) (hr : Representable r) (hle : r ≤ q) : r ≤ n * 2 ^ e := by
  by_contra hlt
  have hnear := h.le hr
  rw [abs_of_nonneg (by linarith), abs_of_nonneg (by linarith)] at hnear
  linarith

end Nearest

theorem shiftRightOne_even (j : ℕ) (r s : Bool) :
    (ExtendedMantissa.mk (2 * j) r s).shiftRightOne = ⟨j, false, r || s⟩ := by
  simp [ExtendedMantissa.shiftRightOne]

theorem shiftRightOne_odd (j : ℕ) (r s : Bool) :
    (ExtendedMantissa.mk (2 * j + 1) r s).shiftRightOne = ⟨j, true, r || s⟩ := by
  have hdiv : (2 * j + 1) / 2 = j := by omega
  simp [ExtendedMantissa.shiftRightOne, hdiv]

/-- What is left of a significand `q` once its last bits have been dropped: the whole part, whether
the rest comes up to one half, and whether there is something beside. -/
inductive Holds : ExtendedMantissa → ℚ → Prop
  | whole (m : ℕ) : Holds ⟨m, false, false⟩ m
  | below {m : ℕ} {q : ℚ} : m < q → q < m + 1 / 2 → Holds ⟨m, false, true⟩ q
  | half (m : ℕ) : Holds ⟨m, true, false⟩ (m + 1 / 2)
  | above {m : ℕ} {q : ℚ} : m + 1 / 2 < q → q < m + 1 → Holds ⟨m, true, true⟩ q

namespace Holds

variable {em : ExtendedMantissa} {q : ℚ}

theorem abs_le (h : Holds em q) : |q - em.roundedMantissa| ≤ 1 / 2 := by
  rw [abs_sub_le_iff]
  cases h with
  | whole m =>
    change (m : ℚ) - m ≤ 1 / 2 ∧ (m : ℚ) - m ≤ 1 / 2
    norm_num
  | @below m _ hlo hhi =>
    change q - m ≤ 1 / 2 ∧ m - q ≤ 1 / 2
    constructor <;> linarith
  | half m =>
    -- The odd one of the two neighbours is left.
    change (m + 1 / 2 : ℚ) - (m + m % 2 : ℕ) ≤ 1 / 2 ∧ (m + m % 2 : ℕ) - (m + 1 / 2 : ℚ) ≤ 1 / 2
    rcases Nat.mod_two_eq_zero_or_one m with h | h <;> rw [h] <;> push_cast <;>
      constructor <;> linarith
  | @above m _ hlo hhi =>
    change q - (m + 1 : ℕ) ≤ 1 / 2 ∧ (m + 1 : ℕ) - q ≤ 1 / 2
    push_cast
    constructor <;> linarith

theorem even_of_abs_eq (h : Holds em q) (heq : |q - em.roundedMantissa| = 1 / 2) :
    Even em.roundedMantissa := by
  cases h with
  | whole m =>
    change |(m : ℚ) - m| = 1 / 2 at heq
    norm_num at heq
  | @below m _ hlo hhi =>
    change |q - m| = 1 / 2 at heq
    rw [abs_of_pos (by linarith)] at heq
    linarith
  | half m =>
    change Even (m + m % 2)
    rw [Nat.even_iff]
    omega
  | @above m _ hlo hhi =>
    change |q - (m + 1 : ℕ)| = 1 / 2 at heq
    push_cast at heq
    rw [abs_of_neg (by linarith)] at heq
    linarith

theorem shiftRightOne (h : Holds em q) : Holds em.shiftRightOne (q / 2) := by
  cases h with
  | whole m =>
    rcases Nat.even_or_odd' m with ⟨j, rfl | rfl⟩
    · rw [shiftRightOne_even, show ((2 * j : ℕ) : ℚ) / 2 = j by push_cast; ring]
      exact .whole j
    · rw [shiftRightOne_odd, show ((2 * j + 1 : ℕ) : ℚ) / 2 = j + 1 / 2 by push_cast; ring]
      exact .half j
  | half m =>
    rcases Nat.even_or_odd' m with ⟨j, rfl | rfl⟩
    · rw [shiftRightOne_even]
      exact .below (by push_cast; linarith) (by push_cast; linarith)
    · rw [shiftRightOne_odd]
      exact .above (by push_cast; linarith) (by push_cast; linarith)
  | @below m _ hlo hhi | @above m _ hlo hhi =>
    rcases Nat.even_or_odd' m with ⟨j, rfl | rfl⟩ <;> push_cast at hlo hhi
    · rw [shiftRightOne_even]
      exact .below (by linarith) (by linarith)
    · rw [shiftRightOne_odd]
      exact .above (by linarith) (by linarith)

theorem shiftRight (h : Holds em q) (k : ℕ) : Holds (em >>> k) (q / 2 ^ k) := by
  change Holds (k.repeat ExtendedMantissa.shiftRightOne em) _
  induction k with
  | zero =>
    rw [pow_zero, div_one]
    exact h
  | succ k ih =>
    rw [pow_succ, ← div_div]
    exact ih.shiftRightOne

end Holds

section

variable {q : ℚ} {n e t R : ℤ}

theorem mul_zpow_add (n t : ℤ) (d : ℕ) : (n * 2 ^ (t + d) : ℚ) = (n * 2 ^ d : ℤ) * 2 ^ t := by
  rw [zpow_add₀ two_ne_zero, zpow_natCast]
  push_cast
  ring

/-- No multiple of `2 ^ t` is nearer than one within half of it, and an equally near one is just
half of it away. -/
theorem abs_le_of_multiple (h : |q - R * 2 ^ t| ≤ 2 ^ t / 2) (k : ℤ) :
    |q - R * 2 ^ t| ≤ |q - k * 2 ^ t| ∧
      (|q - R * 2 ^ t| = |q - k * 2 ^ t| → k = R ∨ |q - R * 2 ^ t| = 2 ^ t / 2) := by
  by_cases hk : k = R
  · subst hk
    exact ⟨le_rfl, fun _ => .inl rfl⟩
  · have hapart : (2 : ℚ) ^ t ≤ |(R * 2 ^ t : ℚ) - k * 2 ^ t| := by
      have hone : (1 : ℚ) ≤ |(R - k : ℤ)| := by
        exact_mod_cast Int.one_le_abs (sub_ne_zero.mpr (Ne.symm hk))
      have hscale : (0 : ℚ) < 2 ^ t := zpow_pos two_pos t
      rw [← sub_mul, abs_mul, abs_of_pos hscale]
      push_cast at hone
      exact le_mul_of_one_le_left hscale.le hone
    have htriangle := abs_sub_le (R * 2 ^ t : ℚ) q (k * 2 ^ t)
    rw [abs_sub_comm _ q] at htriangle
    exact ⟨by linarith, fun heq => .inr (by linarith)⟩

/-- A representable value is a multiple of `2 ^ t`, or there is one nearer to `q`. -/
theorem Representable.exists_multiple {r : ℚ} (hr : Representable r)
    (hq : t = minExponent ∨ 2 ^ (t + 52) ≤ q) :
    ∃ k : ℤ, |q - k * 2 ^ t| ≤ |q - r| ∧ (|q - k * 2 ^ t| = |q - r| → r = k * 2 ^ t) := by
  obtain ⟨n, e, hn, he, rfl⟩ := hr
  by_cases hte : t ≤ e
  · obtain ⟨d, rfl⟩ := Int.le.dest hte
    exact ⟨n * 2 ^ d, by rw [mul_zpow_add], fun _ => mul_zpow_add n t d⟩
  · -- The value is at most the power of two below `q`.
    have hlow : (2 : ℚ) ^ (t + 52) ≤ q := hq.resolve_left (by omega)
    have hpower : (((2 ^ 52 : ℤ) : ℚ) * 2 ^ t) = 2 ^ (t + 52) := by
      rw [zpow_add₀ two_ne_zero]
      push_cast
      ring
    have hsmall : (n * 2 ^ e : ℚ) ≤ 2 ^ (t + 52) :=
      calc (n * 2 ^ e : ℚ) ≤ 2 ^ 53 * 2 ^ e := by
            gcongr
            exact_mod_cast (le_abs_self n).trans hn
        _ = 2 ^ (e + 53) := by
            rw [zpow_add₀ two_ne_zero]
            ring
        _ ≤ 2 ^ (t + 52) := zpow_le_zpow_right₀ one_le_two (by omega)
    refine ⟨2 ^ 52, ?_, ?_⟩ <;>
      rw [hpower, abs_of_nonneg (sub_nonneg.mpr hlow),
        abs_of_nonneg (sub_nonneg.mpr (hsmall.trans hlow))]
    · linarith
    · intro heq
      linarith

theorem nearest_of_multiple (hc : Canonical n.natAbs e) (hvalue : (n * 2 ^ e : ℚ) = R * 2 ^ t)
    (hq : t = minExponent ∨ 2 ^ (t + 52) ≤ q) (hle : |q - R * 2 ^ t| ≤ 2 ^ t / 2)
    (heven : |q - R * 2 ^ t| = 2 ^ t / 2 → Even n) : Nearest q n e := by
  refine ⟨hc, fun hr => ?_, fun hr hne heq => ?_⟩
  · obtain ⟨k, hk, -⟩ := hr.exists_multiple hq
    rw [hvalue]
    exact (abs_le_of_multiple hle k).1.trans hk
  · obtain ⟨k, hk, hkr⟩ := hr.exists_multiple hq
    obtain ⟨hRk, htie⟩ := abs_le_of_multiple hle k
    rw [hvalue] at hne heq
    rcases htie (le_antisymm hRk (hk.trans heq.ge)) with rfl | hhalf
    · exact absurd (hkr heq) hne
    · exact heven hhalf

end

/-- The significand, with its sign, and the exponent with which arithmetic works. -/
inductive Unpacks : UnpackedFloat → ℤ → ℤ → Prop
  | zero (s : Sign) : Unpacks (.zero s) 0 minExponent
  | finite (s : Sign) (m : ℕ) (e : ℤ) (hm : 0 < m) : Unpacks (.finite s m e hm) (s.apply m) e

theorem natAbs_apply (s : Sign) (m : ℕ) : (s.apply m).natAbs = m := by
  cases s <;> simp [Sign.apply]

theorem targetExponent_eq (m : ℕ) (e : ℤ) :
    Format.binary64.targetExponent (totalExponent m e) = max (m.log2 + e - 52) minExponent := by
  have hmin : Format.binary64.minExponent = minExponent := by decide
  have hbits : (Format.binary64.mantissaBits : ℤ) = 53 := rfl
  rw [Format.targetExponent, totalExponent, hmin, hbits]
  congr 1
  ring

section

variable {m : ℕ} {e t : ℤ}

theorem holds_shiftToExponent (h : e ≤ t) :
    (shiftToExponent m e .exact t).2 = t ∧
      Holds (shiftToExponent m e .exact t).1 (m * 2 ^ e / 2 ^ t) := by
  obtain ⟨k, rfl⟩ := Int.le.dest h
  have hk : (e + k - e).toNat = k := by omega
  have hvalue : (m * 2 ^ e / 2 ^ (e + k) : ℚ) = m / 2 ^ k := by
    rw [zpow_add₀ two_ne_zero, zpow_natCast]
    field_simp
  unfold shiftToExponent
  dsimp only
  rw [hk, hvalue]
  exact ⟨rfl, (Holds.whole m).shiftRight k⟩

theorem shiftToTargetExponent_of_lt (hm : m < 2 ^ 53) (ht : minExponent ≤ t) :
    shiftToTargetExponent .binary64 m t .exact = (⟨m, false, false⟩, t) := by
  have hlog : m.log2 ≤ 52 := by
    rcases eq_or_ne m 0 with rfl | h0
    · simp
    · exact Nat.le_of_lt_succ ((Nat.log2_lt h0).mpr hm)
  have hshift : (max (m.log2 + t - 52) minExponent - t).toNat = 0 := by omega
  unfold shiftToTargetExponent shiftToExponent
  dsimp only
  rw [targetExponent_eq, hshift]
  exact Prod.ext rfl (add_zero t)

theorem shiftToTargetExponent_carry (ht : minExponent ≤ t) :
    shiftToTargetExponent .binary64 (2 ^ 53) t .exact = (⟨2 ^ 52, false, false⟩, t + 1) := by
  have hshift : (max ((2 ^ 53 : ℕ).log2 + t - 52) minExponent - t).toNat = 1 := by
    rw [Nat.log2_two_pow]
    omega
  unfold shiftToTargetExponent shiftToExponent
  dsimp only
  rw [targetExponent_eq, hshift]
  rfl

theorem unpacks_roundWithAccuracy {em : ExtendedMantissa} {k : ℕ} {r b : Bool} {u : ℤ}
    (hfirst : shiftToTargetExponent .binary64 m e .exact = (em, t))
    (hsecond : shiftToTargetExponent .binary64 em.roundedMantissa t .exact = (⟨k, r, b⟩, u))
    (hzero : k = 0 → u = minExponent) (s : Sign) :
    Unpacks (roundWithAccuracy .binary64 s m e .exact) (s.apply k) u := by
  unfold roundWithAccuracy
  rw [hfirst]
  dsimp only
  rw [hsecond]
  dsimp only
  split
  · rename_i h0
    subst h0
    rw [hzero rfl]
    cases s <;> exact .zero _
  · exact .finite s k u _

theorem mem_binade (hm : 0 < m) (ht : t = max (m.log2 + e - 52) minExponent) :
    (t = minExponent ∨ (2 : ℚ) ^ (t + 52) ≤ m * 2 ^ e) ∧ (m * 2 ^ e : ℚ) < 2 ^ (t + 53) := by
  have hlow : (2 : ℚ) ^ (m.log2 + e) ≤ m * 2 ^ e := by
    rw [zpow_add₀ two_ne_zero, zpow_natCast]
    gcongr
    exact_mod_cast Nat.log2_self_le hm.ne'
  have hhigh : (m * 2 ^ e : ℚ) < 2 ^ (m.log2 + 1 + e) := by
    rw [zpow_add₀ two_ne_zero, ← Nat.cast_succ, zpow_natCast]
    gcongr
    exact_mod_cast Nat.lt_log2_self
  refine ⟨?_, hhigh.trans_le (zpow_le_zpow_right₀ one_le_two (by omega))⟩
  by_cases hmin : t = minExponent
  · exact .inl hmin
  · exact .inr ((zpow_le_zpow_right₀ one_le_two (by omega)).trans hlow)

end

theorem Holds.abs_mul_le {em : ExtendedMantissa} {q : ℚ} {t : ℤ} (h : Holds em (q / 2 ^ t)) :
    |q - (em.roundedMantissa : ℤ) * 2 ^ t| ≤ 2 ^ t / 2 ∧
      (|q - (em.roundedMantissa : ℤ) * 2 ^ t| = 2 ^ t / 2 → Even em.roundedMantissa) := by
  have hscale : (0 : ℚ) < 2 ^ t := zpow_pos two_pos t
  have hdiv :
      |q - (em.roundedMantissa : ℤ) * 2 ^ t| = |q / 2 ^ t - em.roundedMantissa| * 2 ^ t := by
    rw [← abs_of_pos hscale, ← abs_mul, abs_of_pos hscale, sub_mul, div_mul_cancel₀ _ hscale.ne',
      Int.cast_natCast]
  rw [hdiv]
  refine ⟨?_, fun heq => h.even_of_abs_eq ?_⟩
  · have := mul_le_mul_of_nonneg_right h.abs_le hscale.le
    linarith
  · apply mul_right_cancel₀ hscale.ne'
    linarith

/-- The rounded significand has at most one bit too many, and none too few. -/
theorem roundedMantissa_mem {q : ℚ} {t : ℤ} {R : ℕ} (hR : |q - (R : ℤ) * 2 ^ t| ≤ 2 ^ t / 2)
    (hlow : t = minExponent ∨ 2 ^ (t + 52) ≤ q) (hhigh : q < 2 ^ (t + 53)) :
    R ≤ 2 ^ 53 ∧ (t = minExponent ∨ 2 ^ 52 ≤ R) := by
  have hscale : (0 : ℚ) < 2 ^ t := zpow_pos two_pos t
  rw [Int.cast_natCast, abs_sub_le_iff] at hR
  constructor
  · have hlt : (R : ℚ) * 2 ^ t < (2 ^ 53 + 1 : ℕ) * 2 ^ t := by
      rw [zpow_add₀ two_ne_zero] at hhigh
      push_cast
      linarith
    exact Nat.le_of_lt_succ (by exact_mod_cast lt_of_mul_lt_mul_right hlt hscale.le)
  · refine hlow.imp_right fun hlow => ?_
    have hlt : ((2 ^ 52 : ℕ) : ℚ) * 2 ^ t < (R + 1 : ℕ) * 2 ^ t := by
      rw [zpow_add₀ two_ne_zero] at hlow
      push_cast
      linarith
    exact Nat.le_of_lt_succ (by exact_mod_cast lt_of_mul_lt_mul_right hlt hscale.le)

theorem nearest_roundWithAccuracy (s : Sign) {m : ℕ} {e : ℤ} (hm : 0 < m)
    (he : e ≤ max (m.log2 + e - 52) minExponent) :
    ∃ n e', Unpacks (roundWithAccuracy .binary64 s m e .exact) (s.apply n) e' ∧
      Nearest (m * 2 ^ e) n e' := by
  generalize ht : max ((m.log2 : ℤ) + e - 52) minExponent = t at he
  obtain ⟨hexponent, hholds⟩ := holds_shiftToExponent (m := m) he
  obtain ⟨hlow, hhigh⟩ := mem_binade hm ht.symm
  obtain ⟨hle, heven⟩ := hholds.abs_mul_le
  obtain ⟨hmax, hmin⟩ := roundedMantissa_mem hle hlow hhigh
  have htmin : minExponent ≤ t := ht ▸ le_max_right _ _
  have hfirst : shiftToTargetExponent .binary64 m e .exact =
      ((shiftToExponent m e .exact t).1, t) := by
    unfold shiftToTargetExponent
    rw [targetExponent_eq, ht]
    exact Prod.ext rfl hexponent
  generalize (shiftToExponent m e .exact t).1 = em at *
  rcases hmax.lt_or_eq with hlt | hcarry
  · refine ⟨em.roundedMantissa, t, unpacks_roundWithAccuracy hfirst
      (shiftToTargetExponent_of_lt hlt htmin) (fun h0 => hmin.resolve_right (by omega)) s, ?_⟩
    exact nearest_of_multiple ⟨hlt, htmin, hmin.symm⟩ rfl hlow hle
      fun h => (Int.even_coe_nat _).mpr (heven h)
  · have hsecond := shiftToTargetExponent_carry htmin
    rw [← hcarry] at hsecond
    refine ⟨(2 ^ 52 : ℕ), t + 1, unpacks_roundWithAccuracy hfirst hsecond
      (fun h0 => absurd h0 (by decide)) s, ?_⟩
    refine nearest_of_multiple ⟨by decide, by omega, .inl le_rfl⟩ ?_ hlow hle fun _ => by decide
    rw [hcarry, zpow_add_one₀ two_ne_zero]
    push_cast
    ring

section

variable {m : ℕ} (e t : ℤ)

theorem decreaseExponent_value :
    ((decreaseExponent m e t).1 * 2 ^ (decreaseExponent m e t).2 : ℚ) = m * 2 ^ e := by
  unfold decreaseExponent
  dsimp only
  rw [Nat.shiftLeft_eq, zpow_sub₀ two_ne_zero, zpow_natCast]
  push_cast
  field_simp

theorem decreaseExponent_pos (hm : 0 < m) : 0 < (decreaseExponent m e t).1 := by
  change 0 < m <<< (e - t).toNat
  rw [Nat.shiftLeft_eq]
  positivity

theorem decreaseExponent_log2 (hm : 0 < m) :
    ((decreaseExponent m e t).1.log2 + (decreaseExponent m e t).2 : ℤ) = m.log2 + e := by
  have hlog (k : ℕ) : (m <<< k).log2 = m.log2 + k := by
    rw [Nat.shiftLeft_eq, Nat.log2_eq_iff (by positivity), add_right_comm, pow_add, pow_add]
    exact ⟨Nat.mul_le_mul_right _ (Nat.log2_self_le hm.ne'),
      Nat.mul_lt_mul_of_pos_right Nat.lt_log2_self (by positivity)⟩
  unfold decreaseExponent
  dsimp only
  rw [hlog]
  push_cast
  ring

theorem nearest_round (s : Sign) (hm : 0 < m) :
    ∃ n e', Unpacks (UnpackedFloat.round .binary64 s m e) n e' ∧
      Nearest (s.apply m * 2 ^ e) n e' := by
  unfold UnpackedFloat.round
  dsimp only
  rw [targetExponent_eq]
  generalize ht : max ((m.log2 : ℤ) + e - 52) minExponent = t
  have hlog := decreaseExponent_log2 e t hm
  have hvalue := decreaseExponent_value (m := m) e t
  have hle : (decreaseExponent m e t).2 ≤ t := by
    unfold decreaseExponent
    dsimp only
    omega
  obtain ⟨n, e', hunpacks, hnearest⟩ := nearest_roundWithAccuracy s (decreaseExponent_pos e t hm)
    (by rwa [hlog, ht])
  rw [hvalue] at hnearest
  refine ⟨_, _, hunpacks, ?_⟩
  cases s with
  | positive => exact hnearest
  | negative =>
    have h := hnearest.neg
    rw [← neg_mul] at h
    simpa [Sign.apply] using h

theorem nearest_normalize (n e : ℤ) (s : Sign) :
    ∃ n' e', Unpacks (UnpackedFloat.normalize .binary64 n e s) n' e' ∧
      Nearest (n * 2 ^ e) n' e' := by
  unfold UnpackedFloat.normalize
  rcases lt_trichotomy n 0 with hn | rfl | hn
  · obtain ⟨m, rfl⟩ : ∃ m : ℕ, n = -m := ⟨n.natAbs, by omega⟩
    rw [compare_lt_iff_lt.mpr hn]
    have h := nearest_round e .negative (m := m) (by omega)
    simpa [Sign.apply] using h
  · have h := nearest_self (n := 0) canonical_zero
    exact ⟨0, minExponent, .zero s, by simpa using h⟩
  · obtain ⟨m, rfl⟩ := Int.eq_ofNat_of_zero_le hn.le
    rw [compare_gt_iff_gt.mpr hn]
    have h := nearest_round e .positive (m := m) (by omega)
    simpa [Sign.apply] using h

end

end NodeScript.Binary64
