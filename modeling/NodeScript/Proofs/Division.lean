import Mathlib.Data.Int.ModEq
import Mathlib.Data.Rat.Floor
import Mathlib.Tactic.Linarith
import Mathlib.Tactic.Ring
import NodeScript.Operation

namespace NodeScript

/-- `n` is `r` without its fraction. -/
structure IsIntegralPart (r : ℚ) (n : ℤ) : Prop where
  abs_le : |(n : ℚ)| ≤ |r|
  abs_lt_add_one : |r| < |(n : ℚ)| + 1
  same_sign : 0 ≤ n * r

theorem IsIntegralPart.neg {r : ℚ} {n : ℤ} (h : IsIntegralPart r n) :
    IsIntegralPart (-r) (-n) := by
  refine ⟨?_, ?_, ?_⟩
  · rw [Int.cast_neg, abs_neg, abs_neg]
    exact h.abs_le
  · rw [Int.cast_neg, abs_neg, abs_neg]
    exact h.abs_lt_add_one
  · rw [Int.cast_neg, neg_mul_neg]
    exact h.same_sign

theorem isIntegralPart_floor {r : ℚ} (h : 0 ≤ r) : IsIntegralPart r ⌊r⌋ := by
  have hfloor : (0 : ℚ) ≤ ⌊r⌋ := by exact_mod_cast Int.floor_nonneg.mpr h
  refine ⟨?_, ?_, mul_nonneg hfloor h⟩ <;> rw [abs_of_nonneg h, abs_of_nonneg hfloor]
  · exact Int.floor_le r
  · exact Int.lt_floor_add_one r

theorem isIntegralPart_tdiv (r : ℚ) : IsIntegralPart r (r.num.tdiv r.den) := by
  have hnonneg {s : ℚ} (hs : 0 ≤ s) : IsIntegralPart s (s.num.tdiv s.den) := by
    rw [Int.tdiv_eq_ediv_of_nonneg (Rat.num_nonneg.mpr hs), ← Rat.floor_def]
    exact isIntegralPart_floor hs
  rcases le_total 0 r with hr | hr
  · exact hnonneg hr
  · have h := (hnonneg (neg_nonneg.mpr hr)).neg
    rwa [Rat.neg_num, Rat.neg_den, Int.neg_tdiv, neg_neg, neg_neg] at h

def Number.toRat : Number → ℚ
  | int n => n
  | float x => Binary64.toRat x

theorem Number.isIntegralPart_truncate (x : Number) : IsIntegralPart x.toRat x.truncate := by
  cases x with
  | int n => simpa [toRat, truncate] using isIntegralPart_tdiv n
  | float x => exact isIntegralPart_tdiv (Binary64.toRat x)

/-- The value stands for a number with this integral part. -/
def Value.StandsFor (v : Value) (n : ℤ) : Prop :=
  ∃ x, v.toNumber? = some x ∧ IsIntegralPart x.toRat n

theorem Value.standsFor_of_toInteger? {v : Value} {n : ℤ} (h : v.toInteger? = some n) :
    v.StandsFor n := by
  obtain ⟨x, hx, rfl⟩ := Option.map_eq_some_iff.mp h
  exact ⟨x, hx, x.isIntegralPart_truncate⟩

namespace Operation

variable {a b : ℤ}

structure IsQuotient (a b q : ℤ) : Prop where
  abs_eq : |q| = ⌊|(a : ℚ)| / |(b : ℚ)|⌋
  sign_eq : q ≠ 0 → q.sign = (a * b).sign
  abs_sub_lt : |a - b * q| < |b|

/-- The one remainder from zero up to the size of the divisor. -/
structure IsRemainder (a b m : ℤ) : Prop where
  nonneg : 0 ≤ m
  lt : m < |b|
  dvd : b ∣ a - m
  unique : ∀ k, 0 ≤ k → k < |b| → b ∣ a - k → k = m

theorem isQuotient_divide (hb : b ≠ 0) : IsQuotient a b (divide a b) := by
  unfold divide
  refine ⟨?_, fun hq => ?_, ?_⟩
  · have hfloor := Rat.floor_natCast_div_natCast a.natAbs b.natAbs
    rw [Nat.cast_natAbs, Nat.cast_natAbs, Int.cast_abs, Int.cast_abs] at hfloor
    rw [hfloor, Int.abs_eq_natAbs, Int.natAbs_tdiv]
    rfl
  · have hsign := Int.sign_tdiv a b
    split at hsign
    · exact absurd (Int.sign_eq_zero_iff_zero.mp hsign) hq
    · rw [hsign, Int.sign_mul]
  · rw [← Int.tmod_def, Int.abs_eq_natAbs, Int.natAbs_tmod, Int.abs_eq_natAbs]
    exact_mod_cast Nat.mod_lt _ (Int.natAbs_pos.mpr hb)

theorem isRemainder_modulo (hb : b ≠ 0) : IsRemainder a b (modulo a b) := by
  unfold modulo
  refine ⟨Int.emod_nonneg a hb, Int.emod_lt_abs a hb, Int.dvd_self_sub_emod, ?_⟩
  intro k h0 hlt hdvd
  have hmod : k % b = a % b := Int.modEq_iff_dvd.mpr hdvd
  rw [← hmod, ← Int.emod_abs, Int.emod_eq_of_lt h0 hlt]

/-- The remainder is what the quotient leaves over, brought into its range. -/
theorem IsRemainder.eq_of_isQuotient {q m : ℤ} (hm : IsRemainder a b m) (hq : IsQuotient a b q) :
    m = if 0 ≤ a - b * q then a - b * q else a - b * q + |b| := by
  obtain ⟨hlow, hhigh⟩ := abs_lt.mp hq.abs_sub_lt
  split
  · rename_i h
    exact (hm.unique _ h hhigh ⟨q, by ring⟩).symm
  · rename_i h
    have hdvd : b ∣ a - (a - b * q + |b|) := by
      rw [show a - (a - b * q + |b|) = b * q - |b| by ring]
      exact dvd_sub (dvd_mul_right b q) (self_dvd_abs b)
    exact (hm.unique _ (by linarith) (by linarith) hdvd).symm

variable {i : Inputs}

theorem integerDivision_eq_ok (f : ℤ → ℤ → ℤ) (warning : Text)
    (ha : (i.value "A").toInteger? = some a) (hb : (i.value "B").toInteger? = some b) (h0 : b ≠ 0)
    (g : Generator) : integerDivision f warning i g = .ok (.int (f a b), g) := by
  unfold integerDivision int plain
  dsimp only
  have hoperands : operands Value.toInteger? (.int 0) i = .ok (a, b) :=
    operands_eq_ok_iff.mpr ⟨ha, hb⟩
  rw [hoperands]
  change Except.map _ (Except.map _ (if b = 0 then _ else _)) = _
  rw [if_neg h0]
  rfl

end Operation

namespace NodeKind

open Operation

/-- For operands with integral parts `a` and `b` the two operations give the quotient rounded toward
zero and the remainder that is not negative, and the quotient tells the remainder. -/
theorem quotient_and_remainder {i : Inputs} {a b : ℤ} (ha : (i.value "A").toInteger? = some a)
    (hb : (i.value "B").toInteger? = some b) (h0 : b ≠ 0) (g : Generator) :
    (i.value "A").StandsFor a ∧ (i.value "B").StandsFor b ∧
      ∃ division remainder q m, divideInteger.operation? = some division ∧
        division i g = .ok (.int q, g) ∧ moduloInteger.operation? = some remainder ∧
        remainder i g = .ok (.int m, g) ∧ IsQuotient a b q ∧ IsRemainder a b m ∧
        m = if 0 ≤ a - b * q then a - b * q else a - b * q + |b| := by
  have hq : IsQuotient a b (divide a b) := isQuotient_divide h0
  have hm : IsRemainder a b (modulo a b) := isRemainder_modulo h0
  exact ⟨Value.standsFor_of_toInteger? ha, Value.standsFor_of_toInteger? hb, _, _, _, _, rfl,
    integerDivision_eq_ok _ _ ha hb h0 g, rfl, integerDivision_eq_ok _ _ ha hb h0 g, hq, hm,
    hm.eq_of_isQuotient hq⟩

def fractions : Inputs := ⟨[("A", .text " -7.9"), ("B", .float (-2.5))]⟩

theorem quotient_and_remainder_fractions :
    (fractions.value "A").toInteger? = some (-7) ∧ (fractions.value "B").toInteger? = some (-2) ∧
      (-2 : ℤ) ≠ 0 ∧ (fractions.value "A").StandsFor (-7) ∧ (fractions.value "B").StandsFor (-2) ∧
      ∃ division remainder q m, divideInteger.operation? = some division ∧
        division fractions (.ofSeed 0) = .ok (.int q, .ofSeed 0) ∧
        moduloInteger.operation? = some remainder ∧
        remainder fractions (.ofSeed 0) = .ok (.int m, .ofSeed 0) ∧ IsQuotient (-7) (-2) q ∧
        IsRemainder (-7) (-2) m ∧
        m = if 0 ≤ -7 - -2 * q then -7 - -2 * q else -7 - -2 * q + |-2| := by
  have ha : (fractions.value "A").toInteger? = some (-7) := by decide +kernel
  have hb : (fractions.value "B").toInteger? = some (-2) := by decide +kernel
  have h0 : (-2 : ℤ) ≠ 0 := by decide
  exact ⟨ha, hb, h0, quotient_and_remainder ha hb h0 _⟩

end NodeKind

end NodeScript
