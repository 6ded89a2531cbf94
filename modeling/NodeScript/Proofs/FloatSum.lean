import NodeScript.Proofs.Rounding

namespace NodeScript.Binary64

open Float.Model Float.Model.UnpackedFloat

theorem apply_decreaseExponent (s : Sign) (m : ℕ) {e t : ℤ} (h : t ≤ e) :
    (s.apply (decreaseExponent m e t).1 * 2 ^ t : ℚ) = s.apply m * 2 ^ e := by
  have hvalue := decreaseExponent_value (m := m) e t
  have hexponent : (decreaseExponent m e t).2 = t := by
    unfold decreaseExponent
    dsimp only
    omega
  rw [hexponent] at hvalue
  cases s with
  | positive => exact hvalue
  | negative => simpa [Sign.apply] using hvalue

section

variable {u w : UnpackedFloat} {m n d e : ℤ}

/-- The sum of two floats is rounded once. -/
theorem Unpacks.add (hu : Unpacks u m d) (hw : Unpacks w n e) (hm : Canonical m.natAbs d)
    (hn : Canonical n.natAbs e) :
    ∃ k f, Unpacks (UnpackedFloat.add .binary64 u w) k f ∧ Nearest (m * 2 ^ d + n * 2 ^ e) k f := by
  cases hu with
  | zero s =>
    rw [Int.cast_zero, zero_mul, zero_add]
    cases hw with
    | zero s' =>
      refine ⟨0, minExponent, ?_, nearest_self hn⟩
      unfold UnpackedFloat.add
      dsimp only
      split <;> exact .zero _
    | finite s' m' e' hm' => exact ⟨_, _, .finite s' m' e hm', nearest_self hn⟩
  | finite s m' _ hm' =>
    cases hw with
    | zero s' =>
      rw [Int.cast_zero, zero_mul, add_zero]
      exact ⟨_, _, .finite s m' d hm', nearest_self hm⟩
    | finite s' n' _ hn' =>
      rw [← apply_decreaseExponent s m' (min_le_left d e),
        ← apply_decreaseExponent s' n' (min_le_right d e), ← add_mul, ← Int.cast_add]
      exact nearest_normalize _ _ _

end

def maxExponent : ℤ := 971

section

variable {m : ℕ} {e : ℤ}

theorem unpack_packComponents_normal (s : Sign) (hm : m < 2 ^ 53) (hm' : 2 ^ 52 ≤ m)
    (he : minExponent ≤ e) (he' : e ≤ maxExponent) (hpos : 0 < m) :
    UnpackedFloat.unpack .binary64
      (packComponents .binary64 s (BitVec.ofNat 11 (e + 1023 + 52).toNat) (BitVec.ofNat 52 m)) =
      .finite s m e hpos := by
  have hmin : minExponent = -1074 := rfl
  have hmax : maxExponent = 971 := rfl
  have hbiased : (BitVec.ofNat 11 (e + 1023 + 52).toNat).toNat = (e + 1075).toNat := by
    rw [BitVec.toNat_ofNat]
    omega
  have hsignificand : (1#1 ++ BitVec.ofNat 52 m).toNat = m := by
    rw [toNat_one_append, BitVec.toNat_ofNat, show hiddenBit = 2 ^ 52 from rfl]
    omega
  have hfinite : BitVec.ofNat 11 (e + 1023 + 52).toNat ≠ -1#11 := by
    intro h
    rw [h] at hbiased
    change 2047 = _ at hbiased
    omega
  have hnormal : BitVec.ofNat 11 (e + 1023 + 52).toNat ≠ 0#11 := by
    intro h
    rw [h] at hbiased
    change 0 = _ at hbiased
    omega
  unfold UnpackedFloat.unpack
  simp only [unpackMantissa_packComponents, unpackExponent_packComponents,
    unpackSign_packComponents, Sign.ofBitVec_toBitVec]
  rw [if_neg hfinite, if_neg hnormal]
  congr 1
  rw [hbiased]
  change ((e + 1075).toNat : ℤ) - (1023 + 52) = e
  omega

theorem unpack_packComponents_subnormal (s : Sign) (hm : m < 2 ^ 52) (hpos : 0 < m) :
    UnpackedFloat.unpack .binary64
      (packComponents .binary64 s 0#11 (BitVec.ofNat 52 m)) =
      .finite s m minExponent hpos := by
  have hfraction : (BitVec.ofNat 52 m).toNat = m := by
    rw [BitVec.toNat_ofNat, Nat.mod_eq_of_lt hm]
  have hnonzero : BitVec.ofNat 52 m ≠ 0#52 := by
    intro h
    rw [h] at hfraction
    exact hpos.ne hfraction
  have hfinite : 0#11 ≠ -1#11 := by decide
  unfold UnpackedFloat.unpack
  simp only [unpackMantissa_packComponents, unpackExponent_packComponents,
    unpackSign_packComponents, Sign.ofBitVec_toBitVec]
  rw [if_neg hfinite, if_pos trivial, dif_neg hnonzero]
  congr 1

/-- A float is unpacked as it has been packed. -/
theorem unpack_pack_finite (s : Sign) (h : Canonical m e) (he : e ≤ maxExponent) (hm : 0 < m) :
    (pack (.finite s m e hm)).unpack = .finite s m e hm := by
  have hmin : minExponent = -1074 := rfl
  have hmax : maxExponent = 971 := rfl
  have hle := h.le
  change UnpackedFloat.unpack .binary64 (UnpackedFloat.pack .binary64 (.finite s m e hm)) = _
  unfold UnpackedFloat.pack
  dsimp only
  have hfits : ¬2 ^ 11 ≤ (e + Format.binary64.exponentBias + (52 : ℕ)).toNat + 1 := by
    rw [show (Format.binary64.exponentBias : ℤ) = 1023 from rfl]
    omega
  rw [if_neg hfits]
  by_cases hnormal : 2 ^ 52 ≤ m
  · have hlog : m.log2 + 1 = Format.binary64.mantissaBits := by
      rw [(Nat.log2_eq_iff hm.ne').mpr ⟨hnormal, h.lt⟩]
      rfl
    rw [if_pos hlog]
    exact unpack_packComponents_normal s h.lt hnormal h.le he hm
  · have hlog : m.log2 + 1 ≠ Format.binary64.mantissaBits := by
      have := (Nat.log2_lt hm.ne').mpr (not_le.mp hnormal)
      change m.log2 + 1 ≠ 53
      omega
    obtain rfl : e = minExponent := h.normal.resolve_left hnormal
    rw [if_neg hlog]
    exact unpack_packComponents_subnormal s (not_le.mp hnormal) hm

theorem unpack_pack_zero (s : Sign) : (pack (.zero s)).unpack = .zero s := by
  cases s <;> rfl

end

section

variable {u : UnpackedFloat} {n n' e e' : ℤ}

theorem Unpacks.unique (h : Unpacks u n e) (h' : Unpacks u n' e') : n = n' ∧ e = e' := by
  cases h <;> cases h' <;> exact ⟨rfl, rfl⟩

theorem Unpacks.unpack_pack (h : Unpacks u n e) (hc : Canonical n.natAbs e)
    (he : e ≤ maxExponent) : (pack u).unpack = u := by
  cases h with
  | zero s => exact unpack_pack_zero s
  | finite s m e hm =>
    rw [natAbs_apply] at hc
    exact unpack_pack_finite s hc he hm

end

section

variable {x y : Float} {n e : ℤ}

def signed (x : Float) : ℤ := Decimal.applySign (parts x).negative (parts x).significand

theorem natAbs_signed (x : Float) : (signed x).natAbs = (parts x).significand := by
  unfold signed Decimal.applySign
  split <;> simp

theorem canonical_signed (x : Float) : Canonical (signed x).natAbs (parts x).exponent := by
  rw [natAbs_signed]
  exact canonical_parts x

theorem unpacks_of_isFinite (hx : x.isFinite) :
    Unpacks x.toModel.unpack (signed x) (parts x).exponent := by
  rcases unpack_finite hx with ⟨hzero, s, hunpack⟩ | ⟨hm, hunpack⟩
  · have hsigned : signed x = 0 := by rw [← Int.natAbs_eq_zero, natAbs_signed, hzero]
    have hexponent : (parts x).exponent = minExponent :=
      (canonical_parts x).normal.resolve_left (by rw [hzero]; decide)
    rw [hunpack, hsigned, hexponent]
    exact .zero s
  · have hsigned : signed x = (signOf (parts x).negative).apply (parts x).significand := by
      unfold signed
      cases (parts x).negative <;> rfl
    rw [hunpack, hsigned]
    exact .finite _ _ _ hm

theorem isFinite_of_unpacks (h : Unpacks x.toModel.unpack n e) : x.isFinite := by
  change x.toModel.unpack.isFinite = true
  generalize x.toModel.unpack = u at h
  cases h <;> rfl

theorem exponent_le (hx : x.isFinite) : (parts x).exponent ≤ maxExponent := by
  have hbiased : x.toBits.toNat / hiddenBit % Nat.pow 2 11 ≠ 2047 := by
    rw [← toNat_unpackExponent]
    intro h
    have hones : unpackExponent (word x) = -1#11 := BitVec.eq_of_toNat_eq h
    change (UnpackedFloat.unpack Format.binary64 (word x)).isFinite = true at hx
    unfold UnpackedFloat.unpack at hx
    dsimp only at hx
    rw [if_pos hones] at hx
    split at hx <;> cases hx
  have hlt : x.toBits.toNat / hiddenBit % Nat.pow 2 11 < 2048 := Nat.mod_lt _ (by decide)
  have hmin : minExponent = -1074 := rfl
  have hmax : maxExponent = 971 := rfl
  unfold parts
  dsimp only
  split
  · change minExponent ≤ maxExponent
    decide
  · dsimp only
    omega

/-- A value with a larger exponent than `t` is larger than all those with the exponent `t`. -/
theorem Canonical.le_abs_mul {t : ℤ} (h : Canonical n.natAbs e) (ht : minExponent ≤ t)
    (hlt : t < e) : 2 ^ 53 * 2 ^ t ≤ |(n * 2 ^ e : ℚ)| := by
  have hnormal : 2 ^ 52 ≤ n.natAbs := h.normal.resolve_right (ht.trans_lt hlt).ne'
  have hpos : (0 : ℚ) < 2 ^ e := zpow_pos two_pos e
  rw [abs_mul, abs_of_pos hpos]
  calc (2 : ℚ) ^ 53 * 2 ^ t = 2 ^ 52 * 2 ^ (t + 1) := by
        rw [zpow_add_one₀ two_ne_zero]
        ring
    _ ≤ |(n : ℚ)| * 2 ^ e := by
        gcongr
        · rw [← Int.cast_abs, Int.abs_eq_natAbs]
          exact_mod_cast hnormal
        · exact one_le_two
        · exact hlt

/-- A value that is nearer to the largest number with the exponent `t` than to the power of two
that comes after it keeps to that exponent. -/
theorem Nearest.exponent_le {q : ℚ} {t : ℤ} (h : Nearest q n e) (ht : minExponent ≤ t)
    (hq : |q| < (2 ^ 53 - 1 / 2) * 2 ^ t) : e ≤ t := by
  have hscale : (0 : ℚ) < 2 ^ t := zpow_pos two_pos t
  by_contra hlarge
  have hfar := h.canonical.le_abs_mul ht (not_le.mp hlarge)
  have hlargest : Representable ((2 ^ 53 - 1 : ℤ) * 2 ^ t) := ⟨2 ^ 53 - 1, t, by decide, ht, rfl⟩
  obtain ⟨r, hr, hnear⟩ : ∃ r, Representable r ∧ |q - r| < 2 ^ 53 * 2 ^ t - |q| := by
    rcases abs_cases q with ⟨habs, -⟩ | ⟨habs, -⟩ <;> rw [habs] at hq ⊢
    · refine ⟨_, hlargest, ?_⟩
      rw [abs_lt]
      push_cast
      constructor <;> linarith
    · refine ⟨_, hlargest.neg, ?_⟩
      rw [abs_lt]
      push_cast
      constructor <;> linarith
  have hle := h.le hr
  have htriangle := abs_sub_abs_le_abs_sub (n * 2 ^ e : ℚ) q
  rw [abs_sub_comm] at htriangle
  linarith

theorem nearest_add (hx : x.isFinite) (hy : y.isFinite)
    (hbound : |toRat x + toRat y| < (2 ^ 53 - 1 / 2) * 2 ^ maxExponent) :
    (x + y).isFinite ∧ Nearest (toRat x + toRat y) (signed (x + y)) (parts (x + y)).exponent := by
  rw [toRat_eq x, toRat_eq y] at hbound ⊢
  obtain ⟨n, e, hsum, hnearest⟩ := (unpacks_of_isFinite hx).add (unpacks_of_isFinite hy)
    (canonical_signed x) (canonical_signed y)
  have hunpacks : Unpacks (x + y).toModel.unpack n e := by
    change Unpacks (Float.Model.pack _).unpack n e
    rwa [hsum.unpack_pack hnearest.canonical (hnearest.exponent_le (by decide) hbound)]
  have hfinite := isFinite_of_unpacks hunpacks
  obtain ⟨rfl, rfl⟩ := hunpacks.unique (unpacks_of_isFinite hfinite)
  exact ⟨hfinite, hnearest⟩

theorem Unpacks.neg {u : Float.Model.UnpackedFloat} {n e : ℤ} (h : Unpacks u n e) :
    Unpacks u.neg (-n) e := by
  cases h with
  | zero s => exact .zero (-s)
  | finite s m e hm =>
    have hsign : -(s.apply m) = (-s).apply m := by
      cases s with
      | positive => rfl
      | negative => exact neg_neg _
    rw [hsign]
    exact .finite (-s) m e hm

theorem isFinite_neg (hx : x.isFinite) : (-x).isFinite := by
  have hneg := (unpacks_of_isFinite hx).neg
  have hc : Canonical (-signed x).natAbs (parts x).exponent := by
    rw [Int.natAbs_neg]
    exact canonical_signed x
  refine isFinite_of_unpacks (n := -signed x) (e := (parts x).exponent) ?_
  change Unpacks (Float.Model.pack x.toModel.unpack.neg).unpack _ _
  rwa [hneg.unpack_pack hc (exponent_le hx)]

end

end NodeScript.Binary64
