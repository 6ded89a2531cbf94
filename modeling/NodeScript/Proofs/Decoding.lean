import NodeScript.Text.Utf8

namespace NodeScript.Text

variable {b k low high seen bits n fuel pos : Nat} {os rest : List Nat} {r : Nat × List Nat}
  {l : Lead}

def octetsOf (n : Nat) : List Nat :=
  if n ≤ 0x7F then [n]
  else if n ≤ 0x7FF then [n / 64 + 0xC0, n % 64 + 0x80]
  else if n ≤ 0xFFFF then [n / 4096 + 0xE0, n / 64 % 64 + 0x80, n % 64 + 0x80]
  else [n / 262144 + 0xF0, n / 4096 % 64 + 0x80, n / 64 % 64 + 0x80, n % 64 + 0x80]

theorem toNat_isValidChar (c : Char) : c.toNat.isValidChar := c.valid

theorem map_toNat_utf8EncodeChar (c : Char) :
    (String.utf8EncodeChar c).map UInt8.toNat = octetsOf c.toNat := by
  have hvalid := toNat_isValidChar c
  have hval : c.val.toNat = c.toNat := rfl
  unfold String.utf8EncodeChar octetsOf
  rw [hval]
  generalize c.toNat = n at hvalid
  unfold Nat.isValidChar at hvalid
  dsimp only
  split
  · simp
    omega
  · split
    · simp
      omega
    · split
      · simp
        omega
      · simp
        omega

theorem octetsOf_ne_nil (n : Nat) : octetsOf n ≠ [] := by
  unfold octetsOf
  split
  · exact List.cons_ne_nil _ _
  · split
    · exact List.cons_ne_nil _ _
    · split <;> exact List.cons_ne_nil _ _

theorem follow_succ : follow (k + 1) low high seen bits os = .ok r ↔
    ∃ b rest, os = b :: rest ∧ (low ≤ b ∧ b ≤ high) ∧
      follow k 0x80 0xBF (seen + 1) (bits * 64 + (b - 0x80)) rest = .ok r := by
  cases os with
  | nil => simp [follow]
  | cons b rest =>
    rw [follow]
    by_cases h : low ≤ b ∧ b ≤ high
    · rw [if_pos h]
      constructor
      · exact fun hr => ⟨b, rest, rfl, h, hr⟩
      · rintro ⟨b, rest, ⟨⟩, -, hr⟩
        exact hr
    · rw [if_neg h]
      constructor
      · exact nofun
      · rintro ⟨b, rest, ⟨⟩, hb, -⟩
        exact absurd hb h

theorem follow_zero : follow 0 low high seen bits os = .ok (n, rest) ↔ os = rest ∧ n = bits := by
  rw [follow, Except.ok.injEq, Prod.mk.injEq, and_comm, eq_comm (a := bits)]

theorem follow_one : follow 1 low high seen bits os = .ok (n, rest) ↔
    ∃ b, os = b :: rest ∧ (low ≤ b ∧ b ≤ high) ∧ n = bits * 64 + (b - 0x80) := by
  simp only [follow_succ, follow_zero]
  constructor
  · rintro ⟨b, os, rfl, hb, rfl, hn⟩
    exact ⟨b, rfl, hb, hn⟩
  · rintro ⟨b, rfl, hb, hn⟩
    exact ⟨b, rest, rfl, hb, rfl, hn⟩

theorem follow_two : follow 2 low high seen bits os = .ok (n, rest) ↔
    ∃ b c, os = b :: c :: rest ∧ (low ≤ b ∧ b ≤ high) ∧ (0x80 ≤ c ∧ c ≤ 0xBF) ∧
      n = (bits * 64 + (b - 0x80)) * 64 + (c - 0x80) := by
  simp only [follow_succ (k := 1), follow_one]
  constructor
  · rintro ⟨b, os, rfl, hb, c, rfl, hc, hn⟩
    exact ⟨b, c, rfl, hb, hc, hn⟩
  · rintro ⟨b, c, rfl, hb, hc, hn⟩
    exact ⟨b, _, rfl, hb, c, rfl, hc, hn⟩

theorem follow_three : follow 3 low high seen bits os = .ok (n, rest) ↔
    ∃ b c d, os = b :: c :: d :: rest ∧ (low ≤ b ∧ b ≤ high) ∧ (0x80 ≤ c ∧ c ≤ 0xBF) ∧
      (0x80 ≤ d ∧ d ≤ 0xBF) ∧
      n = ((bits * 64 + (b - 0x80)) * 64 + (c - 0x80)) * 64 + (d - 0x80) := by
  simp only [follow_succ (k := 2), follow_two]
  constructor
  · rintro ⟨b, os, rfl, hb, c, d, rfl, hc, hd, hn⟩
    exact ⟨b, c, d, rfl, hb, hc, hd, hn⟩
  · rintro ⟨b, c, d, rfl, hb, hc, hd, hn⟩
    exact ⟨b, _, rfl, hb, c, d, rfl, hc, hd, hn⟩

theorem between_ite_iff {p q : Prop} [Decidable p] [Decidable q] {x a a' z z' : Nat} :
    ((if p then a else a') ≤ x ∧ x ≤ if q then z else z') ↔
      (p → a ≤ x) ∧ (¬p → a' ≤ x) ∧ (q → x ≤ z) ∧ (¬q → x ≤ z') := by
  by_cases hp : p <;> by_cases hq : q <;> simp [hp, hq]

/-- The lead and what follows it are the octets of a character. -/
theorem eq_octetsOf_of_follow (hl : lead? b = some l)
    (h : follow l.following l.low l.high 1 l.bits os = .ok (n, rest)) :
    n.isValidChar ∧ b :: os = octetsOf n ++ rest := by
  unfold Nat.isValidChar octetsOf
  unfold lead? at hl
  split at hl
  · cases hl
    dsimp only at h
    obtain ⟨rfl, hn⟩ := follow_zero.mp h
    rw [if_pos (by omega), hn]
    exact ⟨by omega, rfl⟩
  split at hl
  · cases hl
  split at hl
  · cases hl
    dsimp only at h
    obtain ⟨b₁, rfl, hb₁, hn⟩ := follow_one.mp h
    rw [if_neg (by omega), if_pos (by omega)]
    simp only [List.cons_append, List.nil_append, List.cons.injEq, and_true]
    omega
  split at hl
  · cases hl
    dsimp only at h
    obtain ⟨b₁, b₂, rfl, hb₁, hb₂, hn⟩ := follow_two.mp h
    have hb₁ := between_ite_iff.mp hb₁
    rw [if_neg (by omega), if_neg (by omega), if_pos (by omega)]
    simp only [List.cons_append, List.nil_append, List.cons.injEq, and_true]
    omega
  split at hl
  · cases hl
    dsimp only at h
    obtain ⟨b₁, b₂, b₃, rfl, hb₁, hb₂, hb₃, hn⟩ := follow_three.mp h
    have hb₁ := between_ite_iff.mp hb₁
    rw [if_neg (by omega), if_neg (by omega), if_neg (by omega)]
    simp only [List.cons_append, List.nil_append, List.cons.injEq, and_true]
    omega
  · cases hl

theorem follow_of_octetsOf (hn : n.isValidChar) (rest : List Nat) :
    ∃ b os l, octetsOf n ++ rest = b :: os ∧ lead? b = some l ∧
      follow l.following l.low l.high 1 l.bits os = .ok (n, rest) := by
  unfold Nat.isValidChar at hn
  unfold octetsOf
  split
  · exact ⟨n, rest, ⟨0, 0x80, 0xBF, n⟩, rfl, by rw [lead?, if_pos (by omega)],
      follow_zero.mpr ⟨rfl, rfl⟩⟩
  split
  · refine ⟨_, _, ⟨1, 0x80, 0xBF, n / 64 + 0xC0 - 0xC0⟩, rfl, ?_, follow_one.mpr ⟨_, rfl, ?_, ?_⟩⟩
    · rw [lead?, if_neg (by omega), if_neg (by omega), if_pos (by omega)]
    · dsimp only
      omega
    · dsimp only
      omega
  split
  · refine ⟨_, _, ⟨2, if n / 4096 + 0xE0 = 0xE0 then 0xA0 else 0x80,
      if n / 4096 + 0xE0 = 0xED then 0x9F else 0xBF, n / 4096 + 0xE0 - 0xE0⟩, rfl, ?_,
      follow_two.mpr ⟨_, _, rfl, between_ite_iff.mpr ?_, ?_, ?_⟩⟩
    · rw [lead?, if_neg (by omega), if_neg (by omega), if_neg (by omega), if_pos (by omega)]
    · omega
    · omega
    · dsimp only
      omega
  · refine ⟨_, _, ⟨3, if n / 262144 + 0xF0 = 0xF0 then 0x90 else 0x80,
      if n / 262144 + 0xF0 = 0xF4 then 0x8F else 0xBF, n / 262144 + 0xF0 - 0xF0⟩, rfl, ?_,
      follow_three.mpr ⟨_, _, _, rfl, between_ite_iff.mpr ?_, ?_, ?_, ?_⟩⟩
    · rw [lead?, if_neg (by omega), if_neg (by omega), if_neg (by omega), if_neg (by omega),
        if_pos (by omega)]
    · omega
    · omega
    · omega
    · dsimp only
      omega

theorem toNat_ofNat (hn : n.isValidChar) : (Char.ofNat n).toNat = n := by
  rw [Char.ofNat, dif_pos hn]
  rfl

theorem decodeFrom_cons (hl : lead? b = some l)
    (hf : follow l.following l.low l.high 1 l.bits os = .ok (n, rest)) :
    decodeFrom (fuel + 1) pos (b :: os) =
      (decodeFrom fuel (pos + l.following + 1) rest).map (Char.ofNat n :: ·) := by
  rw [decodeFrom, hl]
  dsimp only
  rw [hf]

theorem exists_of_decodeFrom {cs : List Char} (h : decodeFrom (fuel + 1) pos (b :: os) = .ok cs) :
    ∃ n rest pos' cs', n.isValidChar ∧ b :: os = octetsOf n ++ rest ∧
      decodeFrom fuel pos' rest = .ok cs' ∧ cs = Char.ofNat n :: cs' := by
  rw [decodeFrom] at h
  split at h
  · cases h
  · rename_i l hl
    split at h
    · cases h
    · rename_i n rest hf
      obtain ⟨hn, heq⟩ := eq_octetsOf_of_follow hl hf
      cases hd : decodeFrom fuel (pos + l.following + 1) rest with
      | error e =>
        rw [hd] at h
        cases h
      | ok cs' =>
        rw [hd] at h
        cases h
        exact ⟨n, rest, _, cs', hn, heq, hd, rfl⟩

theorem length_le_of_octetsOf (h : b :: os = octetsOf n ++ rest) : rest.length ≤ os.length := by
  have hlength := congrArg List.length h
  have hpos := List.length_pos_iff.mpr (octetsOf_ne_nil n)
  rw [List.length_cons, List.length_append] at hlength
  omega

theorem decodeFrom_eq_ok_iff {cs : List Char} (hfuel : os.length ≤ fuel) :
    decodeFrom fuel pos os = .ok cs ↔ os = cs.flatMap fun c => octetsOf c.toNat := by
  -- Each character takes its lead off the octets, so that the fuel is enough for the rest.
  induction fuel generalizing pos os cs with
  | zero =>
    cases List.length_eq_zero_iff.mp (Nat.le_zero.mp hfuel)
    cases cs with
    | nil => exact ⟨fun _ => rfl, fun _ => rfl⟩
    | cons c cs => simp [decodeFrom, octetsOf_ne_nil]
  | succ fuel ih =>
    cases os with
    | nil =>
      cases cs with
      | nil => exact ⟨fun _ => rfl, fun _ => rfl⟩
      | cons c cs => simp [decodeFrom, octetsOf_ne_nil]
    | cons b os =>
      have hos : os.length ≤ fuel := Nat.le_of_succ_le_succ hfuel
      constructor
      · intro h
        obtain ⟨n, rest, pos', cs', hn, heq, hd, rfl⟩ := exists_of_decodeFrom h
        have hrest := (ih (Nat.le_trans (length_le_of_octetsOf heq) hos)).mp hd
        rw [heq, List.flatMap_cons, toNat_ofNat hn, ← hrest]
      · intro h
        cases cs with
        | nil => cases h
        | cons c cs =>
          rw [List.flatMap_cons] at h
          obtain ⟨b', os', l, heq, hl, hf⟩ := follow_of_octetsOf (toNat_isValidChar c)
            (cs.flatMap fun c => octetsOf c.toNat)
          have hlength := Nat.le_trans (length_le_of_octetsOf h) hos
          cases h.trans heq
          rw [decodeFrom_cons hl hf, (ih hlength).mpr rfl]
          exact congrArg (fun d => Except.ok (d :: cs)) (Char.ofNat_toNat c)

theorem encodeUtf8_coe (s : String) :
    encodeUtf8 s = .ok (s.toList.flatMap fun c => octetsOf c.toNat) := by
  refine congrArg Except.ok ?_
  rw [List.map_flatMap]
  simp only [map_toNat_utf8EncodeChar]

theorem decodeUtf8_eq_ok_iff {s : String} : decodeUtf8 os = .ok s ↔ encodeUtf8 s = .ok os := by
  have hiff : decodeFrom os.length 0 os = .ok s.toList ↔ _ := decodeFrom_eq_ok_iff (Nat.le_refl _)
  rw [encodeUtf8_coe, decodeUtf8, Except.ok.injEq, eq_comm (b := os), ← hiff]
  cases decodeFrom os.length 0 os with
  | error e => exact ⟨nofun, nofun⟩
  | ok cs =>
    constructor
    · intro h
      cases h
      rw [String.toList_ofList]
    · intro h
      cases h
      exact congrArg Except.ok String.ofList_toList

end NodeScript.Text
