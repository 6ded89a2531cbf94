import Mathlib
import NodeScript.Value.Text

/-!
The order of floats and the order of the rationals that they denote. Floats are compared by sign,
exponent and significand; as a significand uses all its bits unless the exponent is the least one,
this is the order of their values. The lemmas about the fields of a packed float are in no part of
the library that can be imported alone.
-/

namespace NodeScript.Binary64

open Float.Model Float.Model.UnpackedFloat

def word (x : Float) : BitVec Format.binary64.numBits := x.toModel.toBits.toBitVec

def signOf (negative : Bool) : Sign := if negative then .negative else .positive

theorem toNat_word (x : Float) : (word x).toNat = x.toBits.toNat := rfl

theorem toNat_unpackMantissa (x : Float) :
    (unpackMantissa (word x)).toNat = x.toBits.toNat % hiddenBit := by
  simp [unpackMantissa, BitVec.extractLsb_toNat, hiddenBit, toNat_word]

theorem toNat_unpackExponent (x : Float) :
    (unpackExponent (word x)).toNat = x.toBits.toNat / hiddenBit % Nat.pow 2 11 := by
  simp [unpackExponent, BitVec.extractLsb_toNat, hiddenBit, Nat.shiftRight_eq_div_pow, toNat_word]

theorem ofBitVec_unpackSign (x : Float) :
    Sign.ofBitVec (unpackSign (word x)) = signOf (Nat.pow 2 63 ≤ x.toBits.toNat) := by
  have hsign : unpackSign (word x) = 0#1 ↔ ¬Nat.pow 2 63 ≤ x.toBits.toNat := by
    have hlt : x.toBits.toNat < 2 ^ 64 := x.toBits.toNat_lt
    rw [← BitVec.toNat_inj]
    simp only [unpackSign, BitVec.toNat_cast, BitVec.extractLsb_toNat, Nat.shiftRight_eq_div_pow,
      toNat_word, BitVec.toNat_ofNat, Nat.pow_eq]
    omega
  by_cases h : Nat.pow 2 63 ≤ x.toBits.toNat
  · rw [Sign.ofBitVec, if_neg (fun h0 => hsign.mp h0 h), signOf, if_pos (decide_eq_true h)]
  · rw [Sign.ofBitVec, if_pos (hsign.mpr h), signOf, if_neg (by simpa using h)]

theorem toNat_one_append (v : BitVec 52) : (1#1 ++ v).toNat = hiddenBit + v.toNat := by
  have hor := Nat.two_pow_add_eq_or_of_lt v.isLt 1
  rw [BitVec.toNat_append]
  simpa [Nat.shiftLeft_eq, hiddenBit] using hor.symm

theorem parts_of_eq_zero {x : Float} (h : x.toBits.toNat / hiddenBit % Nat.pow 2 11 = 0) :
    parts x = ⟨Nat.pow 2 63 ≤ x.toBits.toNat, x.toBits.toNat % hiddenBit, minExponent⟩ := if_pos h

theorem parts_of_ne_zero {x : Float} (h : x.toBits.toNat / hiddenBit % Nat.pow 2 11 ≠ 0) :
    parts x = ⟨Nat.pow 2 63 ≤ x.toBits.toNat, hiddenBit + x.toBits.toNat % hiddenBit,
      minExponent + (x.toBits.toNat / hiddenBit % Nat.pow 2 11 - 1 : Nat)⟩ := if_neg h

theorem unpack_finite {x : Float} (hx : x.isFinite) :
    ((parts x).significand = 0 ∧ ∃ s, x.toModel.unpack = .zero s) ∨
      ∃ hm, x.toModel.unpack =
        .finite (signOf (parts x).negative) (parts x).significand (parts x).exponent hm := by
  change (UnpackedFloat.unpack Format.binary64 (word x)).isFinite = true at hx
  change _ ∧ (∃ s, UnpackedFloat.unpack Format.binary64 (word x) = .zero s) ∨
    ∃ hm, UnpackedFloat.unpack Format.binary64 (word x) =
      .finite (signOf (parts x).negative) (parts x).significand (parts x).exponent hm
  revert hx
  unfold UnpackedFloat.unpack
  dsimp only
  rw [ofBitVec_unpackSign]
  split
  · -- All bits of the exponent are set: the float is not finite.
    split <;> exact nofun
  · split
    · rename_i hzero
      have hbiased : x.toBits.toNat / hiddenBit % Nat.pow 2 11 = 0 := by
        rw [← toNat_unpackExponent, hzero]
        rfl
      rw [parts_of_eq_zero hbiased, ← toNat_unpackMantissa]
      split
      · rename_i hnone
        exact fun _ => .inl ⟨congrArg BitVec.toNat hnone, _, rfl⟩
      · rename_i hsome
        have hpos : 0 < (unpackMantissa (word x)).toNat :=
          Nat.pos_iff_ne_zero.mpr fun h0 => hsome (BitVec.toNat_inj.mp h0)
        exact fun _ => .inr ⟨hpos, by rw [hzero]; rfl⟩
    · rename_i hnonzero
      have hbiased : x.toBits.toNat / hiddenBit % Nat.pow 2 11 ≠ 0 := by
        rw [← toNat_unpackExponent]
        exact fun h0 => hnonzero (BitVec.toNat_inj.mp h0)
      have hexponent : ((unpackExponent (word x)).toNat : Int) -
          (Format.binary64.exponentBias + 52) =
          minExponent + (x.toBits.toNat / hiddenBit % Nat.pow 2 11 - 1 : Nat) := by
        have hbias : (Format.binary64.exponentBias : Int) = 1023 := rfl
        rw [toNat_unpackExponent, hbias, minExponent]
        omega
      have hpos : 0 < (1#1 ++ unpackMantissa (word x)).toNat := by
        rw [toNat_one_append]
        exact Nat.add_pos_left (by decide) _
      rw [parts_of_ne_zero hbiased, ← toNat_unpackMantissa, ← toNat_one_append]
      exact fun _ => .inr ⟨hpos, by rw [← hexponent]; rfl⟩

theorem isNaN_eq_false {x : Float} (hx : x.isFinite) : x.isNaN = false := by
  change x.toModel.unpack.isNaN = false
  rcases unpack_finite hx with ⟨-, s, h⟩ | ⟨hm, h⟩ <;> rw [h] <;> rfl

theorem isInf_eq_false {x : Float} (hx : x.isFinite) : x.isInf = false := by
  change x.toModel.unpack.isInf = false
  rcases unpack_finite hx with ⟨-, s, h⟩ | ⟨hm, h⟩ <;> rw [h] <;> rfl

/-- Only its sign is lost when the absolute value of a float is taken. -/
theorem unpack_abs (x : Float) : x.abs.toModel.unpack = x.toModel.unpack.abs := by
  have habs : UnpackedFloat.unpack Format.binary64
      (packComponents _ .positive (unpackExponent (word x)) (unpackMantissa (word x))) =
      (UnpackedFloat.unpack Format.binary64 (word x)).abs := by
    unfold UnpackedFloat.unpack
    simp only [unpackMantissa_packComponents, unpackExponent_packComponents,
      unpackSign_packComponents]
    split
    · split <;> rfl
    · split
      · split <;> rfl
      · rfl
  change UnpackedFloat.unpack Format.binary64 (UnpackedFloat.pack Format.binary64
    (UnpackedFloat.unpack Format.binary64 (word x)).abs) =
    (UnpackedFloat.unpack Format.binary64 (word x)).abs
  rw [← habs, pack_unpack_of_valid]
  -- What is left is that these bits are canonical. Only for a float that is no number there is
  -- something to show, and that one has no sign to lose.
  refine ⟨fun hexponent hmantissa => ?_⟩
  rw [unpackExponent_packComponents] at hexponent
  rw [unpackMantissa_packComponents] at hmantissa
  have hnan : word x = packedNaN Format.binary64 := x.toModel.valid.eq_packedNaN hexponent hmantissa
  rw [hnan, packedNaN, unpackExponent_packComponents, unpackMantissa_packComponents]

theorem toRat_eq (x : Float) :
    toRat x = Decimal.applySign (parts x).negative (parts x).significand *
      (2 : ℚ) ^ (parts x).exponent := by
  unfold toRat
  dsimp only
  generalize Decimal.applySign (parts x).negative (parts x).significand = m
  generalize (parts x).exponent = e
  split
  · rename_i he
    obtain ⟨k, rfl⟩ := Int.eq_ofNat_of_zero_le he
    simp
  · rename_i he
    obtain ⟨k, rfl⟩ : ∃ k : Nat, e = -(k : Int) := ⟨(-e).toNat, by omega⟩
    rw [Rat.mkRat_eq_div]
    simp [div_eq_mul_inv]

theorem abs_toRat (x : Float) :
    |toRat x| = (parts x).significand * (2 : ℚ) ^ (parts x).exponent := by
  have hscale : (0 : ℚ) < 2 ^ (parts x).exponent := zpow_pos two_pos _
  rw [toRat_eq, abs_mul, abs_of_pos hscale]
  cases (parts x).negative <;> simp [Decimal.applySign]

section

variable {x : Float} {n : Int}

theorem truncate_of_toRat_eq (h : toRat x = n) : truncate x = n := by
  rw [truncate, h]
  simp

theorem isIntegral_of_toRat_eq (hx : x.isFinite) (h : toRat x = n) : isIntegral x = true := by
  simp [isIntegral, hx, h]

end

/-- Significands and exponents as they are stored. -/
structure Canonical (m : Nat) (e : Int) : Prop where
  lt : m < 2 ^ 53
  le : minExponent ≤ e
  normal : 2 ^ 52 ≤ m ∨ e = minExponent

theorem canonical_parts (x : Float) : Canonical (parts x).significand (parts x).exponent := by
  have hfraction : x.toBits.toNat % hiddenBit < 2 ^ 52 := Nat.mod_lt _ (by decide)
  have hbit : hiddenBit = 2 ^ 52 := rfl
  unfold parts
  dsimp only
  split
  · exact ⟨by dsimp only; omega, le_rfl, .inr rfl⟩
  · exact ⟨by dsimp only; omega, by dsimp only; omega, .inl (by dsimp only; omega)⟩

namespace Canonical

variable {m n : Nat} {d e : Int}

theorem mul_lt_mul (hm : Canonical m d) (hn : Canonical n e) (h : d < e ∨ d = e ∧ m < n) :
    (m : ℚ) * 2 ^ d < n * 2 ^ e := by
  rcases h with h | ⟨rfl, h⟩
  · -- The larger exponent is not the least one, so all bits of its significand are used.
    have hnormal : 2 ^ 52 ≤ n := hn.normal.resolve_right (by have := hm.le; omega)
    calc (m : ℚ) * 2 ^ d < 2 ^ 53 * 2 ^ d := by
          gcongr
          exact_mod_cast hm.lt
      _ = 2 ^ 52 * 2 ^ (d + 1) := by
          rw [zpow_add₀ two_ne_zero]
          ring
      _ ≤ n * 2 ^ e := by
          gcongr
          · exact_mod_cast hnormal
          · exact one_le_two
          · exact h
  · gcongr

theorem mul_lt_mul_iff (hm : Canonical m d) (hn : Canonical n e) :
    (m : ℚ) * 2 ^ d < n * 2 ^ e ↔ d < e ∨ d = e ∧ m < n := by
  refine ⟨fun hlt => ?_, hm.mul_lt_mul hn⟩
  by_contra hnot
  have hge : e < d ∨ e = d ∧ n < m ∨ d = e ∧ m = n := by omega
  rcases hge with h | h | ⟨rfl, rfl⟩
  · exact lt_asymm hlt (hn.mul_lt_mul hm (.inl h))
  · exact lt_asymm hlt (hn.mul_lt_mul hm (.inr h))
  · exact lt_irrefl _ hlt

end Canonical

theorem lt_iff_compare {x y : Float} :
    x < y ↔ UnpackedFloat.compare x.toModel.unpack y.toModel.unpack = some .lt := by
  change decide (UnpackedFloat.lt x.toModel.unpack y.toModel.unpack = true) = true ↔ _
  rw [decide_eq_true_iff, UnpackedFloat.lt, beq_iff_eq]

theorem unpack_of_pos {x : Float} (hx : x.isFinite) (hpos : 0 < toRat x) :
    ∃ hm, x.toModel.unpack = .finite .positive (parts x).significand (parts x).exponent hm := by
  have hscale : (0 : ℚ) < 2 ^ (parts x).exponent := zpow_pos two_pos _
  have hsigned : 0 < Decimal.applySign (parts x).negative (parts x).significand := by
    rw [toRat_eq] at hpos
    exact_mod_cast pos_of_mul_pos_left hpos hscale.le
  rcases unpack_finite hx with ⟨hzero, -⟩ | ⟨hm, hunpack⟩
  · simp [hzero, Decimal.applySign] at hsigned
  · cases hsign : (parts x).negative with
    | false =>
      rw [hsign] at hunpack
      exact ⟨hm, hunpack⟩
    | true =>
      rw [hsign, Decimal.applySign, if_pos rfl] at hsigned
      omega

/-- The size of a float is compared as that of its value. -/
theorem abs_lt_iff {x y : Float} (hx : x.isFinite) (hy : y.isFinite) (hpos : 0 < toRat y) :
    x.abs < y ↔ |toRat x| < toRat y := by
  obtain ⟨hn, hupper⟩ := unpack_of_pos hy hpos
  rw [lt_iff_compare, unpack_abs, hupper]
  rcases unpack_finite hx with ⟨hzero, s, hlower⟩ | ⟨hm, hlower⟩
  · rw [hlower, abs_toRat, hzero, Nat.cast_zero, zero_mul]
    exact iff_of_true rfl hpos
  · rw [hlower, ← abs_of_pos hpos, abs_toRat, abs_toRat,
      (canonical_parts x).mul_lt_mul_iff (canonical_parts y)]
    change some ((compare _ _).then (compare _ _)) = some _ ↔ _
    rw [Option.some_inj, Ordering.then_eq_lt, compare_lt_iff_lt, compare_eq_iff_eq,
      compare_lt_iff_lt]

end NodeScript.Binary64

namespace NodeScript.Value

open Binary64

theorem toRat_integralBound : toRat integralBound = 10 ^ 21 := by decide +kernel

theorem isFinite_integralBound : integralBound.isFinite = true := by decide +kernel

theorem floatDisplay_of_integral {x : Float} {n : Int} (hx : x.isFinite) (hn : toRat x = n)
    (hlt : |n| < 10 ^ 21) : floatDisplay x = Decimal.numeral n := by
  have hbound : x.abs < integralBound := by
    rw [abs_lt_iff hx isFinite_integralBound (by rw [toRat_integralBound]; positivity),
      toRat_integralBound, hn]
    exact_mod_cast hlt
  have hintegral : isIntegral x = true := isIntegral_of_toRat_eq hx hn
  have hnan : ¬x.isNaN := by rw [isNaN_eq_false hx]; nofun
  have hinf : ¬x.isInf := by rw [isInf_eq_false hx]; nofun
  rw [floatDisplay, if_neg hnan, if_neg hinf, hintegral, decide_eq_true hbound, Bool.and_self,
    if_pos rfl, truncate_of_toRat_eq hn]

end NodeScript.Value
