import NodeScript.Operation
import NodeScript.Proofs.FloatSum

/-!
Rounding half up in float arithmetic. One half is added before the floor is taken. As the sum is
itself rounded, it comes up to the next integer too early at the largest float below one half, and
at the odd integers from where floats have no fraction; everywhere else the result is exact.
-/

namespace NodeScript.Binary64

section

variable {n e k l t : ℤ}

theorem abs_midpoint_sub (hl : l = k ∨ l = k + 1) :
    |((k + 1 / 2) * 2 ^ t - l * 2 ^ t : ℚ)| = 2 ^ t / 2 := by
  have hscale : (0 : ℚ) < 2 ^ t := zpow_pos two_pos t
  rw [← sub_mul, abs_mul, abs_of_pos hscale]
  rcases hl with rfl | rfl
  · rw [add_sub_cancel_left, abs_of_pos one_half_pos]
    ring
  · push_cast
    rw [add_sub_add_left_eq_sub]
    norm_num
    ring

/-- Values with a full significand at the exponent `t`, or with a larger exponent, are multiples of
`2 ^ t`. -/
theorem Canonical.exists_multiple (h : Canonical n.natAbs e) (hk : 2 ^ 52 ≤ k ∨ k < -2 ^ 52)
    (hlow : k * 2 ^ t ≤ (n * 2 ^ e : ℚ)) (hhigh : (n * 2 ^ e : ℚ) ≤ (k + 1) * 2 ^ t) :
    ∃ d : ℕ, e = t + d ∧ (n * 2 ^ d = k ∨ n * 2 ^ d = k + 1) := by
  have hscale : (0 : ℚ) < 2 ^ t := zpow_pos two_pos t
  have hexponent : t ≤ e := by
    refine h.le_exponent ?_
    rcases hk with hk | hk
    · have hcast : (2 ^ 52 : ℚ) * 2 ^ t ≤ k * 2 ^ t := by
        gcongr
        exact_mod_cast hk
      exact le_trans (by linarith) (le_abs_self _)
    · have hcast : (k + 1 : ℚ) * 2 ^ t ≤ -2 ^ 52 * 2 ^ t := by
        gcongr
        exact_mod_cast hk
      exact le_trans (by linarith) (neg_le_abs _)
  obtain ⟨d, rfl⟩ := Int.le.dest hexponent
  rw [mul_zpow_add] at hlow hhigh
  have hlow' : k ≤ n * 2 ^ d := by exact_mod_cast le_of_mul_le_mul_right hlow hscale
  have hhigh' : n * 2 ^ d ≤ k + 1 := by exact_mod_cast le_of_mul_le_mul_right hhigh hscale
  exact ⟨d, rfl, by omega⟩

/-- From the middle between two neighbours the even one is taken. -/
theorem Nearest.eq_of_midpoint (h : Nearest ((k + 1 / 2) * 2 ^ t) n e)
    (hk : 2 ^ 52 ≤ k ∨ k < -2 ^ 52) (hl : l = k ∨ l = k + 1) (heven : Even l)
    (hr : Representable (l * 2 ^ t)) : (n * 2 ^ e : ℚ) = l * 2 ^ t := by
  have hnear := h.le hr
  rw [abs_midpoint_sub hl, abs_sub_le_iff] at hnear
  have hlow : k * 2 ^ t ≤ (n * 2 ^ e : ℚ) := by linarith
  have hhigh : (n * 2 ^ e : ℚ) ≤ (k + 1) * 2 ^ t := by linarith
  obtain ⟨d, rfl, hneighbour⟩ := h.canonical.exists_multiple hk hlow hhigh
  rw [mul_zpow_add]
  by_contra hne
  have hn : Even n := by
    refine h.even hr (fun heq => hne (by rw [heq, mul_zpow_add])) ?_
    rw [mul_zpow_add, abs_midpoint_sub hneighbour, abs_midpoint_sub hl]
  have hm : Even (n * 2 ^ d) := hn.mul_right _
  have hml : n * 2 ^ d ≠ l := fun heq => hne (by rw [heq])
  rw [Int.even_iff] at hm heven
  omega

theorem Nearest.eq_of_integers (h : Nearest (k + 1 / 2) n e) (hk : 2 ^ 52 ≤ k ∨ k < -2 ^ 52)
    (hl : l = k ∨ l = k + 1) (heven : Even l) (hr : Representable l) : (n * 2 ^ e : ℚ) = l := by
  have hmiddle : Nearest ((k + 1 / 2) * 2 ^ (0 : ℤ)) n e := by rwa [zpow_zero, mul_one]
  have hrepresentable : Representable (l * 2 ^ (0 : ℤ)) := by rwa [zpow_zero, mul_one]
  rw [hmiddle.eq_of_midpoint hk hl heven hrepresentable, zpow_zero, mul_one]

end

/-- The values that one half more in float arithmetic brings up to the integer after the nearest
one: the largest below one half, and the odd integers from where floats have no fraction. -/
def Overshoots (v : ℚ) : Prop :=
  v = 1 / 2 - 1 / 2 ^ 54 ∨ v.den = 1 ∧ Odd v.num ∧ 2 ^ 52 < |v.num|

instance : DecidablePred Overshoots := fun _ => inferInstanceAs (Decidable (_ ∨ _))

theorem overshoots_intCast {k : ℤ} : Overshoots k ↔ Odd k ∧ 2 ^ 52 < |k| := by
  refine ⟨fun h => ?_, fun h => .inr ⟨Rat.den_intCast k, by simpa using h⟩⟩
  rcases h with h | ⟨-, h⟩
  · have hnone : (2 ^ 54 * k : ℤ) = 2 ^ 53 - 1 := by
      have : (2 ^ 54 * k : ℚ) = 2 ^ 53 - 1 := by rw [h]; norm_num
      exact_mod_cast this
    omega
  · simpa using h

theorem floor_add_half (k : ℤ) : ⌊(k + 1 / 2 : ℚ)⌋ = k := by
  rw [Int.floor_eq_iff]
  constructor <;> linarith

section

variable {n e m d : ℤ}

theorem exists_half_eq (he : e < 0) : ∃ j : ℕ, (1 / 2 : ℚ) = (2 ^ j : ℤ) * 2 ^ e := by
  obtain ⟨j, hj⟩ : ∃ j : ℕ, -1 = j + e := ⟨(-1 - e).toNat, by omega⟩
  refine ⟨j, ?_⟩
  calc (1 / 2 : ℚ) = 2 ^ (j + e) := by rw [← hj, zpow_neg_one, one_div]
    _ = (2 ^ j : ℤ) * 2 ^ e := by rw [zpow_add₀ two_ne_zero, zpow_natCast]; push_cast; rfl

/-- One half more is representable, unless the significand becomes too long. -/
theorem Canonical.representable_add_half (h : Canonical n.natAbs e) (he : e < 0)
    (hle : (n * 2 ^ e + 1 / 2 : ℚ) ≤ 2 ^ 53 * 2 ^ e) : Representable (n * 2 ^ e + 1 / 2) := by
  obtain ⟨j, hj⟩ := exists_half_eq he
  have hscale : (0 : ℚ) < 2 ^ e := zpow_pos two_pos e
  have hsum : (n * 2 ^ e + 1 / 2 : ℚ) = (n + 2 ^ j : ℤ) * 2 ^ e := by
    rw [hj]
    push_cast
    ring
  have hhigh : n + 2 ^ j ≤ 2 ^ 53 := by
    rw [hsum] at hle
    exact_mod_cast le_of_mul_le_mul_right hle hscale
  have hlow : -2 ^ 53 ≤ n + 2 ^ j := by
    have hn := (abs_lt.mp h.abs_significand_lt).1
    have hpos : (0 : ℤ) < 2 ^ j := by positivity
    omega
  exact ⟨n + 2 ^ j, e, abs_le.mpr ⟨hlow, hhigh⟩, h.le, hsum⟩

/-- Only one float lies between one half and its neighbour but one. -/
theorem Canonical.le_of_lt_half (h : Canonical n.natAbs e) (hlt : (n * 2 ^ e : ℚ) < 1 / 2)
    (hne : (n * 2 ^ e : ℚ) ≠ 1 / 2 - 1 / 2 ^ 54) : (n * 2 ^ e : ℚ) ≤ 1 / 2 - 1 / 2 ^ 53 := by
  have hsize := (abs_lt.mp h.abs_mul_lt).2
  rcases lt_trichotomy e (-54) with he | rfl | he
  · have hscale : (2 : ℚ) ^ e ≤ 2 ^ (-55 : ℤ) := zpow_le_zpow_right₀ one_le_two (by omega)
    norm_num at hscale
    linarith
  · have hlast : n ≠ 2 ^ 53 - 1 := by
      rintro rfl
      norm_num at hne
    have hn : n ≤ 2 ^ 53 - 2 := by
      have := (abs_lt.mp h.abs_significand_lt).2
      omega
    have hcast : (n : ℚ) ≤ 2 ^ 53 - 2 := by exact_mod_cast hn
    norm_num
    linarith
  · obtain ⟨j, rfl⟩ := Int.le.dest (show -53 ≤ e from he)
    rw [mul_zpow_add] at hlt ⊢
    generalize n * 2 ^ j = k at hlt
    have hk : (k : ℚ) < (2 ^ 52 : ℤ) := by
      norm_num at hlt ⊢
      linarith
    have hcast : (k : ℚ) ≤ (2 ^ 52 - 1 : ℤ) :=
      Int.cast_le.mpr (Int.le_sub_one_of_lt (Int.cast_lt.mp hk))
    norm_num at hcast ⊢
    linarith

/-- An odd integer without room for a fraction has the exponent zero. -/
theorem Canonical.eq_of_odd {k : ℤ} (h : Canonical n.natAbs e) (hvalue : (n * 2 ^ e : ℚ) = k)
    (hodd : Odd k) (hlarge : 2 ^ 52 ≤ |k|) : n = k := by
  have hexponent : 0 ≤ e := by
    refine h.le_exponent ?_
    rw [hvalue, zpow_zero, mul_one]
    exact_mod_cast hlarge
  obtain ⟨j, rfl⟩ := Int.eq_ofNat_of_zero_le hexponent
  have hnk : n * 2 ^ j = k := by exact_mod_cast hvalue
  obtain rfl : j = 0 := by
    by_contra hj
    exact (Int.not_even_iff_odd.mpr hodd) (hnk ▸ (even_two.pow_of_ne_zero hj).mul_left n)
  rwa [pow_zero, mul_one] at hnk

theorem floor_of_overshoots (h : Canonical n.natAbs e) (hv : Overshoots (n * 2 ^ e))
    (hs : Nearest (n * 2 ^ e + 1 / 2) m d) :
    ⌊(m * 2 ^ d : ℚ)⌋ = ⌊(n * 2 ^ e + 1 / 2 : ℚ)⌋ + 1 := by
  rcases hv with hv | ⟨hden, hodd, hlarge⟩
  · -- The sum is half way between one and the last float below it.
    have hsum : (n * 2 ^ e + 1 / 2 : ℚ) = ((2 ^ 53 - 1 : ℤ) + 1 / 2) * 2 ^ (-53 : ℤ) := by
      rw [hv]
      norm_num
    rw [hsum] at hs ⊢
    rw [hs.eq_of_midpoint (l := 2 ^ 53) (.inl (by decide)) (.inr (by decide)) (by decide)
      ⟨2 ^ 53, -53, by decide, by decide, rfl⟩]
    norm_num
  · -- The sum is half way between two integers.
    generalize hk : (n * 2 ^ e : ℚ).num = k at hodd hlarge
    have hvalue : (n * 2 ^ e : ℚ) = k := by rw [← hk, Rat.coe_int_num_of_den_eq_one hden]
    have hsize : |k| < 2 ^ 53 := h.eq_of_odd hvalue hodd hlarge.le ▸ h.abs_significand_lt
    have hnext : Representable ((k + 1 : ℤ) : ℚ) :=
      ⟨k + 1, 0, (abs_add_le k 1).trans hsize, by decide, by rw [zpow_zero, mul_one]⟩
    have hfar : 2 ^ 52 ≤ k ∨ k < -2 ^ 52 := by
      rcases lt_abs.mp hlarge with hlt | hlt <;> omega
    rw [hvalue] at hs ⊢
    rw [hs.eq_of_integers hfar (.inr rfl) hodd.add_one hnext, Int.floor_intCast, floor_add_half]

theorem floor_of_integer {k : ℤ} (hk : 2 ^ 52 ≤ |k|) (hr : Representable k) (hv : ¬Overshoots k)
    (hs : Nearest (k + 1 / 2) m d) : ⌊(m * 2 ^ d : ℚ)⌋ = ⌊(k + 1 / 2 : ℚ)⌋ := by
  have heven : Even k := by
    by_contra hodd
    rw [Int.not_even_iff_odd] at hodd
    refine hv (overshoots_intCast.mpr ⟨hodd, hk.lt_of_ne fun heq => ?_⟩)
    have : Even |k| := heq ▸ by decide
    exact (Int.not_even_iff_odd.mpr hodd) (even_abs.mp this)
  by_cases hlast : k = -2 ^ 52
  · -- From here on down floats have no fraction.
    have hsum : Representable (k + 1 / 2) :=
      ⟨-2 ^ 53 + 1, -1, by decide, by decide, by rw [hlast]; norm_num⟩
    rw [hs.eq_of_representable hsum]
  · have hfar : 2 ^ 52 ≤ k ∨ k < -2 ^ 52 := by
      rcases le_abs.mp hk with hle | hle <;> omega
    rw [hs.eq_of_integers hfar (.inl rfl) heven hr, Int.floor_intCast, floor_add_half]

/-- A value less than one half past an integer is not rounded up to the next one. -/
theorem Nearest.floor_eq_of_lt {q : ℚ} {k : ℤ} (hs : Nearest q m d) (hr : Representable k)
    (hlow : k ≤ q) (hhigh : q < k + 1 / 2) : ⌊(m * 2 ^ d : ℚ)⌋ = ⌊q⌋ := by
  have hge := hs.ge_of_ge hr hlow
  have hnear := hs.le hr
  rw [abs_of_nonneg (sub_nonneg.mpr hlow), abs_sub_le_iff] at hnear
  rw [Int.floor_eq_iff.mpr ⟨hge, by linarith⟩, Int.floor_eq_iff.mpr ⟨hlow, by linarith⟩]

theorem floor_of_fraction (h : Canonical n.natAbs e) (he : e < 0)
    (hv : (n * 2 ^ e : ℚ) ≠ 1 / 2 - 1 / 2 ^ 54) (hs : Nearest (n * 2 ^ e + 1 / 2) m d) :
    ⌊(m * 2 ^ d : ℚ)⌋ = ⌊(n * 2 ^ e + 1 / 2 : ℚ)⌋ := by
  by_cases hfits : (n * 2 ^ e + 1 / 2 : ℚ) ≤ 2 ^ 53 * 2 ^ e
  · rw [hs.eq_of_representable (h.representable_add_half he hfits)]
  · have hlow : (0 : ℚ) < n * 2 ^ e + 1 / 2 := by
      have : (0 : ℚ) < 2 ^ 53 * 2 ^ e := by positivity
      linarith
    by_cases hhalf : (n * 2 ^ e : ℚ) < 1 / 2
    · -- The sum stays between zero and the last float below one.
      have hle := h.le_of_lt_half hhalf hv
      have hzero : Representable 0 := ⟨0, 0, by decide, by decide, by norm_num⟩
      have hlast : Representable (1 - 1 / 2 ^ 53) :=
        ⟨2 ^ 53 - 1, -53, by decide, by decide, by norm_num⟩
      have hge := hs.ge_of_ge hzero hlow.le
      have hle' := hs.le_of_le hlast (by linarith)
      rw [Int.floor_eq_zero_iff.mpr ⟨hge, by linarith⟩,
        Int.floor_eq_zero_iff.mpr ⟨hlow.le, by linarith⟩]
    · -- The sum has come past a power of two, by less than one half.
      have hexponent : -53 ≤ e := by
        refine h.le_exponent ?_
        rw [abs_of_nonneg (by linarith)]
        norm_num
        linarith
      obtain ⟨j, rfl⟩ := Int.le.dest hexponent
      have hpower : (2 ^ 53 * 2 ^ (-53 + j : ℤ) : ℚ) = (2 ^ j : ℤ) := by
        rw [zpow_add₀ two_ne_zero, zpow_natCast, ← mul_assoc]
        norm_num
      have hr : Representable (2 ^ j : ℤ) := ⟨2 ^ 53, -53 + j, by decide, h.le, by
        rw [← hpower]
        norm_num⟩
      have hsize := (abs_lt.mp h.abs_mul_lt).2
      rw [hpower] at hfits hsize
      exact hs.floor_eq_of_lt hr (le_of_not_ge hfits) (by linarith)

theorem floor_of_not_overshoots (h : Canonical n.natAbs e) (hv : ¬Overshoots (n * 2 ^ e))
    (hs : Nearest (n * 2 ^ e + 1 / 2) m d) :
    ⌊(m * 2 ^ d : ℚ)⌋ = ⌊(n * 2 ^ e + 1 / 2 : ℚ)⌋ := by
  rcases lt_or_ge e 0 with he | he
  · exact floor_of_fraction h he (fun heq => hv (.inl heq)) hs
  · obtain ⟨j, rfl⟩ := Int.eq_ofNat_of_zero_le he
    have hr := h.representable
    have hvalue : (n * 2 ^ (j : ℤ) : ℚ) = (n * 2 ^ j : ℤ) := by
      push_cast
      rw [zpow_natCast]
    rw [hvalue] at hv hs hr ⊢
    refine floor_of_integer ?_ hr hv hs
    have hnormal : 2 ^ 52 ≤ n.natAbs :=
      h.normal.resolve_right fun hmin => absurd (hmin ▸ he) (by decide)
    calc (2 : ℤ) ^ 52 ≤ |n| := by
          rw [Int.abs_eq_natAbs]
          exact_mod_cast hnormal
      _ ≤ |n| * 2 ^ j := le_mul_of_one_le_right (abs_nonneg n) (one_le_pow₀ one_le_two)
      _ = |n * 2 ^ j| := by rw [abs_mul, abs_of_pos (by positivity : (0 : ℤ) < 2 ^ j)]

theorem floor_nearest (h : Canonical n.natAbs e) (hs : Nearest (n * 2 ^ e + 1 / 2) m d) :
    ⌊(m * 2 ^ d : ℚ)⌋ =
      ⌊(n * 2 ^ e + 1 / 2 : ℚ)⌋ + if Overshoots (n * 2 ^ e) then 1 else 0 := by
  split
  · rename_i hv
    exact floor_of_overshoots h hv hs
  · rename_i hv
    rw [floor_of_not_overshoots h hv hs, add_zero]

end

section

variable {x : Float}

theorem toRat_half : toRat 0.5 = 1 / 2 := by decide +kernel

theorem isFinite_half : (0.5 : Float).isFinite := by decide +kernel

theorem abs_toRat_le (hx : x.isFinite) : |toRat x| ≤ (2 ^ 53 - 1) * 2 ^ maxExponent := by
  have hlt : ((parts x).significand + 1 : ℚ) ≤ 2 ^ 53 := by exact_mod_cast (canonical_parts x).lt
  rw [abs_toRat]
  gcongr
  · linarith
  · exact one_le_two
  · exact exponent_le hx

theorem roundHalfUp_eq (hx : x.isFinite) :
    Operation.roundHalfUp x = ⌊toRat x + 1 / 2⌋ + if Overshoots (toRat x) then 1 else 0 := by
  have hbound : |toRat x + toRat 0.5| < (2 ^ 53 - 1 / 2) * 2 ^ maxExponent := by
    have hle := abs_add_le (toRat x) (1 / 2)
    have hx := abs_toRat_le hx
    have hone : (1 : ℚ) < 2 ^ maxExponent := one_lt_zpow₀ one_lt_two (by decide)
    have hhalf : |(1 / 2 : ℚ)| = 1 / 2 := abs_of_pos one_half_pos
    rw [toRat_half]
    linarith
  obtain ⟨-, hnearest⟩ := nearest_add hx isFinite_half hbound
  rw [toRat_half, toRat_eq x] at hnearest
  have hfloor := floor_nearest (canonical_signed x) hnearest
  change ⌊toRat (x + 0.5)⌋ = _
  rw [toRat_eq (x + 0.5), toRat_eq x]
  exact hfloor

end

end NodeScript.Binary64

namespace NodeScript

open Binary64

section

variable {x : Float}

theorem Binary64.isFinite_of_ofInt? {n : ℤ} (h : ofInt? n = some x) : x.isFinite := by
  unfold ofInt? at h
  dsimp only at h
  split at h
  · rename_i hx
    cases h
    split
    · exact isFinite_neg hx
    · exact hx
  · cases h

theorem Value.isFinite_of_readNumber {s : Text} (h : readNumber s = some (.float x)) :
    x.isFinite := by
  unfold readNumber at h
  dsimp only at h
  split at h
  · cases h
  · split at h
    · cases h
    · obtain ⟨y, hy, hx⟩ := Option.map_eq_some_iff.mp h
      cases hx
      exact (Option.filter_eq_some_iff.mp hy).2

theorem Value.isFinite_of_toNumber? {v : Value} (h : v.toNumber? = some (.float x)) :
    x.isFinite := by
  cases v with
  | float y =>
    rw [toNumber?] at h
    split at h
    · rename_i hy
      cases h
      exact hy
    · cases h
  | text s | symbol s =>
    rw [toNumber?] at h
    exact isFinite_of_readNumber h
  | bool b | int n | null | list items | record entries =>
    rw [toNumber?] at h
    cases h

theorem Value.isFinite_of_toFloat? {v : Value} (h : v.toFloat? = some x) : x.isFinite := by
  obtain ⟨a, ha, hx⟩ := Option.bind_eq_some_iff.mp h
  cases a with
  | int n => exact isFinite_of_ofInt? hx
  | float y =>
    cases hx
    exact isFinite_of_toNumber? ha

theorem Operation.rounding_eq_ok (f : Float → ℤ) {i : Inputs}
    (h : (i.value "Value").toFloat? = some x) (g : Generator) :
    rounding f i g = .ok (.int (f x), g) := by
  unfold rounding int plain operand
  dsimp only
  rw [h]
  rfl

/-- One more than the nearest integer, half up, is too far away. -/
theorem abs_sub_floor_le_iff (v : ℚ) (far : Prop) [Decidable far] :
    |v - (⌊v + 1 / 2⌋ + if far then 1 else 0 : ℤ)| ≤ 1 / 2 ↔ ¬far := by
  have hle := Int.floor_le (v + 1 / 2)
  have hlt := Int.lt_floor_add_one (v + 1 / 2)
  split
  · rename_i hfar
    refine iff_of_false (fun h => ?_) (not_not.mpr hfar)
    push_cast at h
    have := (abs_le.mp h).1
    linarith
  · rename_i hfar
    refine iff_of_true ?_ hfar
    rw [add_zero, abs_le]
    constructor <;> linarith

end

namespace NodeKind

/-- A value is rounded half up, and exactly, unless one half more overshoots. Only then an integral
value does not stay as it is, and only then the result is more than one half away. -/
theorem roundFloat_result {i : Inputs} {x : Float} (h : (i.value "Value").toFloat? = some x)
    (g : Generator) :
    x.isFinite ∧ ∃ operation n, roundFloat.operation? = some operation ∧
      operation i g = .ok (.int n, g) ∧
      n = ⌊toRat x + 1 / 2⌋ + (if Overshoots (toRat x) then 1 else 0) ∧
      (∀ k : ℤ, toRat x = k → (n = k ↔ ¬Overshoots (toRat x))) ∧
      (|toRat x - n| ≤ 1 / 2 ↔ ¬Overshoots (toRat x)) := by
  have hx : x.isFinite := Value.isFinite_of_toFloat? h
  refine ⟨hx, _, _, rfl, Operation.rounding_eq_ok _ h g, roundHalfUp_eq hx, fun k hk => ?_, ?_⟩
  · rw [roundHalfUp_eq hx, hk, floor_add_half]
    split <;> simp [*]
  · rw [roundHalfUp_eq hx]
    exact abs_sub_floor_le_iff (toRat x) _

def almostHalf : Inputs := ⟨[("Value", .float 0.49999999999999994)]⟩

def wholeOdd : Inputs := ⟨[("Value", .int 4503599627370497)]⟩

/-- A value below one half can be rounded to one, and an integer to its successor. -/
theorem roundFloat_ne_floor :
    ∃ operation, roundFloat.operation? = some operation ∧
      ((almostHalf.value "Value").toFloat? = some 0.49999999999999994 ∧
        ⌊toRat 0.49999999999999994 + 1 / 2⌋ = 0 ∧
        operation almostHalf (.ofSeed 0) = .ok (.int 1, .ofSeed 0)) ∧
      ((wholeOdd.value "Value").toFloat? = some 4503599627370497 ∧
        toRat 4503599627370497 = 4503599627370497 ∧
        operation wholeOdd (.ofSeed 0) = .ok (.int 4503599627370498, .ofSeed 0)) := by
  have hhalf : (almostHalf.value "Value").toFloat? = some 0.49999999999999994 := by decide +kernel
  have hodd : (wholeOdd.value "Value").toFloat? = some 4503599627370497 := by decide +kernel
  refine ⟨_, rfl, ⟨hhalf, by decide +kernel, ?_⟩, hodd, by decide +kernel, ?_⟩
  · rw [Operation.rounding_eq_ok _ hhalf, show Operation.roundHalfUp 0.49999999999999994 = 1 by
      decide +kernel]
  · rw [Operation.rounding_eq_ok _ hodd, show Operation.roundHalfUp 4503599627370497 =
      4503599627370498 by decide +kernel]

def lastFraction : Inputs := ⟨[("Value", .text " 4503599627370495.5")]⟩

theorem roundFloat_result_fraction :
    (lastFraction.value "Value").toFloat? = some 4503599627370495.5 ∧
      ¬Overshoots (toRat 4503599627370495.5) ∧ ∃ operation n,
        roundFloat.operation? = some operation ∧
        operation lastFraction (.ofSeed 0) = .ok (.int n, .ofSeed 0) ∧
        n = ⌊toRat 4503599627370495.5 + 1 / 2⌋ + 0 ∧ |toRat 4503599627370495.5 - n| ≤ 1 / 2 := by
  have h : (lastFraction.value "Value").toFloat? = some 4503599627370495.5 := by decide +kernel
  have hv : ¬Overshoots (toRat 4503599627370495.5) := by decide +kernel
  obtain ⟨-, operation, n, hop, hn, hfloor, -, hnear⟩ := roundFloat_result h (.ofSeed 0)
  exact ⟨h, hv, operation, n, hop, hn, by rwa [if_neg hv] at hfloor, hnear.mpr hv⟩

end NodeKind

end NodeScript
