import NodeScript.Json
import NodeScript.Proofs.Texts

/-!
What keeps a text from being read although it may be JSON: brackets that are nested too deep, and
numerals with too many digits. A text that keeps to both limits is read or refused, and what is read
can be written again.
-/

namespace NodeScript

namespace Value

variable {levels : Nat}

/-- The value has a literal of no more levels than these. -/
def Fits (levels : Nat) (v : Value) : Prop := ∀ f, v.Avoids .literal levels f

theorem fits_of_isScalar {v : Value} (h : v.isScalar) (levels : Nat) : v.Fits levels :=
  fun _ => .of_isScalar h (Nat.zero_le _)

theorem fits_int {n : Int} (h : Decimal.Short n) (levels : Nat) : Fits levels (.int n) :=
  fun _ => (Avoids.int_iff (Nat.zero_le _)).mpr fun _ => h

theorem fits_list {vs : List Value} (h : ∀ v ∈ vs, v.Fits levels) : Fits (levels + 1) (.list vs) :=
  fun f => Avoids.list_iff.mpr fun v hv => h v hv f

theorem fits_record {m : OrderedMap Text Value} (h : ∀ v ∈ m.values, v.Fits levels) :
    Fits (levels + 1) (.record m.entries) :=
  fun f => Avoids.record_iff.mpr fun _ he => h _ (List.mem_map_of_mem he) f

theorem Fits.item {items : List Value} {w : Value} (h : Fits (levels + 1) (.list items))
    (hw : w ∈ items) : w.Fits levels :=
  fun f => Avoids.list_iff.mp (h f) w hw

theorem Fits.entry {entries : List (Text × Value)} {e : Text × Value}
    (h : Fits (levels + 1) (.record entries)) (he : e ∈ entries) : e.2.Fits levels :=
  fun f => Avoids.record_iff.mp (h f) e he

theorem Fits.mono {m n : Nat} {v : Value} (h : v.Fits m) (hle : m ≤ n) : v.Fits n :=
  fun f => ⟨(h f).short, fun hf => Nat.le_trans ((h f).shallow hf) hle⟩

mutual

theorem depth_one_le (v : Value) : v.depth 1 ≤ v.depth 0 + 1 := by
  cases v with
  | list items => exact Nat.succ_le_succ (depthOfItems_one_le items)
  | record entries => exact Nat.succ_le_succ (depthOfEntries_one_le entries)
  | _ => exact Nat.le_refl 1

theorem depthOfItems_one_le (items : List Value) :
    depthOfItems 1 items ≤ depthOfItems 0 items + 1 := by
  cases items with
  | nil => exact Nat.zero_le _
  | cons v items =>
    have hv := depth_one_le v
    have hitems := depthOfItems_one_le items
    rw [depthOfItems, depthOfItems]
    omega

theorem depthOfEntries_one_le (entries : List (Text × Value)) :
    depthOfEntries 1 entries ≤ depthOfEntries 0 entries + 1 := by
  cases entries with
  | nil => exact Nat.zero_le _
  | cons e entries =>
    obtain ⟨key, v⟩ := e
    have hv := depth_one_le v
    have hentries := depthOfEntries_one_le entries
    rw [depthOfEntries, depthOfEntries]
    omega

end

/-- A text takes one level more than a literal. -/
theorem Fits.writable {v : Value} (h : v.Fits levels) (hl : levels < depthLimit) : v.Writable := by
  refine fun f => ⟨(h f).short, fun _ => ?_⟩
  have hliteral : v.depth 0 ≤ levels := (h .literalTooDeep).shallow rfl
  exact Nat.le_trans (depth_one_le v) (Nat.succ_le_of_lt (Nat.lt_of_le_of_lt hliteral hl))

end Value

namespace Decimal

theorem foldl_positional_lt {ds : List Nat} (h : ∀ d ∈ ds, d < 10) (a : Nat) :
    ds.foldl (fun a d => 10 * a + d) a < (a + 1) * Nat.pow 10 ds.length := by
  induction ds generalizing a with
  | nil => exact Nat.lt_of_lt_of_eq (Nat.lt_succ_self a) (Nat.mul_one _).symm
  | cons d ds ih =>
    have hd := h d List.mem_cons_self
    have hstep : 10 * a + d + 1 ≤ (a + 1) * 10 := by omega
    have hpow : (a + 1) * Nat.pow 10 (d :: ds).length = (a + 1) * 10 * Nat.pow 10 ds.length := by
      rw [Nat.mul_assoc, Nat.mul_comm 10]
      rfl
    rw [hpow]
    exact Nat.lt_of_lt_of_le (ih (fun x hx => h x (List.mem_cons_of_mem _ hx)) _)
      (Nat.mul_le_mul_right _ hstep)

def isAnyDigit (c : Char) : Bool := (Text.digit? c).isSome

theorem splitDigits_eq_some {afterDigit : Bool} {cs rest : List Char} {ds : List Nat}
    (h : splitDigits afterDigit cs = some (ds, rest)) :
    (∀ d ∈ ds, d < 10) ∧ ds.length ≤ cs.countP isAnyDigit := by
  induction cs generalizing afterDigit ds rest with
  | nil =>
    cases h
    exact ⟨fun _ hd => absurd hd List.not_mem_nil, Nat.zero_le _⟩
  | cons c cs ih =>
    have hcons : cs.countP isAnyDigit ≤ (c :: cs).countP isAnyDigit :=
      (List.sublist_cons_self c cs).countP_le
    unfold splitDigits at h
    cases hc : Text.digit? c with
    | some d =>
      rw [hc] at h
      obtain ⟨⟨ds', rest'⟩, hr, heq⟩ := Option.map_eq_some_iff.mp h
      cases heq
      obtain ⟨hlt, hle⟩ := ih hr
      rw [List.countP_cons_of_pos (by rw [isAnyDigit, hc]; rfl)]
      exact ⟨List.forall_mem_cons.mpr ⟨Text.digit?_lt hc, hlt⟩, Nat.succ_le_succ hle⟩
    | none =>
      rw [hc] at h
      dsimp only at h
      split at h
      · split at h
        · split at h
          · obtain ⟨hlt, hle⟩ := ih h
            exact ⟨hlt, Nat.le_trans hle hcons⟩
          · cases h
        · cases h
      · cases h
        exact ⟨fun _ hd => absurd hd List.not_mem_nil, Nat.zero_le _⟩

theorem sublist_trim (p : Char → Bool) (cs : List Char) : (Text.trim p cs).Sublist cs := by
  have h := (List.dropWhile_sublist p (l := (cs.dropWhile p).reverse)).reverse
  rw [List.reverse_reverse] at h
  exact h.trans (List.dropWhile_sublist p)

/-- An integer that is read is short; too long is only one with more digits than the limit. -/
theorem readInteger_outcome (s : Text) :
    (∀ n, readInteger s = .ok n → Short n) ∧
    ∀ k, readInteger s = .error (.tooLong k) → digitLimit < k ∧ k ≤ s.chars.countP isAnyDigit := by
  unfold readInteger
  have hsub := (sublist_splitSign (Text.trim Text.isMargin s.chars)).trans
    (sublist_trim Text.isMargin s.chars)
  generalize splitSign (Text.trim Text.isMargin s.chars) = signed at hsub
  obtain ⟨negative, cs⟩ := signed
  dsimp only
  split
  · exact ⟨nofun, nofun⟩
  · rename_i ds rest hsplit
    obtain ⟨hlt, hle⟩ := splitDigits_eq_some hsplit
    split
    · rename_i hlong
      refine ⟨nofun, fun k hk => ?_⟩
      cases hk
      exact ⟨hlong, Nat.le_trans hle hsub.countP_le⟩
    · rename_i hshort
      split
      · exact ⟨nofun, nofun⟩
      · refine ⟨fun n hn => ?_, nofun⟩
        cases hn
        have hpositional : positional ds < Nat.pow 10 digitLimit := by
          generalize digitLimit = limit at hshort ⊢
          have hfold := foldl_positional_lt hlt 0
          rw [Nat.zero_add, Nat.one_mul] at hfold
          exact Nat.lt_of_lt_of_le hfold
            (Nat.pow_le_pow_right (Nat.succ_pos 9) (Nat.le_of_not_lt hshort))
        unfold Short
        rw [applySign]
        split
        · rw [Int.natAbs_neg, Int.natAbs_natCast]
          exact hpositional
        · rw [Int.natAbs_natCast]
          exact hpositional

end Decimal

namespace Json

inductive Place
  | outside
  | inside
  | escaped

/-- From here on a text keeps to the limits: outside of its strings no digits are more than can be
read, and brackets are nested to no more than `room`. -/
def keeps : Place → Nat → List Char → Bool
  | _, _, [] => true
  | .escaped, room, _ :: cs => keeps .inside room cs
  | .inside, room, c :: cs =>
    keeps (if c = '\\' then .escaped else if c = '\x22' then .outside else .inside) room cs
  | .outside, room, c :: cs =>
    if c = '\x22' then keeps .inside room cs
    else if c = '[' ∨ c = '\x7b' then
      match room with
      | 0 => false
      | room + 1 => keeps .outside room cs
    else if c = ']' ∨ c = '\x7d' then keeps .outside (room + 1) cs
    else
      decide (((c :: cs).takeWhile isDigit).length ≤ Decimal.digitLimit) && keeps .outside room cs

def isPlain (c : Char) : Bool := !(['\x22', '[', ']', '\x7b', '\x7d'].contains c)

variable {room : Nat} {c : Cursor} {ch : Char} {cs rest : List Char}

theorem keeps_outside_cons (h : isPlain ch = true) : keeps .outside room (ch :: cs) =
    (decide (((ch :: cs).takeWhile isDigit).length ≤ Decimal.digitLimit) &&
      keeps .outside room cs) := by
  simp only [isPlain, List.contains_cons, List.contains_nil, Bool.or_false, Bool.not_eq_true',
    Bool.or_eq_false_iff, beq_eq_false_iff_ne] at h
  rw [keeps.eq_def]
  dsimp only
  rw [if_neg h.1, if_neg (by simp [h]), if_neg (by simp [h])]

theorem keeps_inside_cons (hb : ch ≠ '\\') (hq : ch ≠ '\x22') :
    keeps .inside room (ch :: cs) = keeps .inside room cs := by
  rw [keeps, if_neg hb, if_neg hq]

theorem keeps_of_append {l : List Char} (hl : ∀ ch ∈ l, isPlain ch = true)
    (h : keeps .outside room (l ++ rest) = true) : keeps .outside room rest = true := by
  induction l with
  | nil => exact h
  | cons ch l ih =>
    rw [List.cons_append, keeps_outside_cons (hl ch List.mem_cons_self), Bool.and_eq_true] at h
    exact ih (fun x hx => hl x (List.mem_cons_of_mem _ hx)) h.2

theorem isPlain_of_isDigit (h : isDigit ch = true) : isPlain ch = true := by
  unfold isPlain
  rw [Bool.not_eq_true', Bool.eq_false_iff]
  intro hc
  have hmem := List.contains_iff_mem.mp hc
  simp only [List.mem_cons, List.not_mem_nil, or_false] at hmem
  rcases hmem with rfl | rfl | rfl | rfl | rfl <;> cases h

theorem length_takeWhile_le (h : keeps .outside room cs = true) :
    (cs.takeWhile isDigit).length ≤ Decimal.digitLimit := by
  cases cs with
  | nil => exact Nat.zero_le _
  | cons ch cs =>
    by_cases hd : isDigit ch = true
    · rw [keeps_outside_cons (isPlain_of_isDigit hd), Bool.and_eq_true, decide_eq_true_eq] at h
      exact h.1
    · rw [List.takeWhile_cons_of_neg hd]
      exact Nat.zero_le _

def Excessive (f : Fault) : Prop :=
  (∃ digits, Decimal.digitLimit < digits ∧ f = .numeralTooLong digits) ∨
    ∃ shape, f = .nestedTooDeep shape

/-- A reader gives what `p` asks for. If the text is good, there is no fault, and the text keeps to
the limits afterwards. -/
def Keeps {α : Type} (good : Prop) (p : α → Prop) (place : Place) (room : Nat) :
    Except Failure (α × Cursor) → Prop
  | .ok (a, c) => p a ∧ (good → keeps place room c.rest = true)
  | .error (.fault f) => Excessive f ∧ ¬good
  | .error (.malformed ..) => True

namespace Keeps

variable {α β : Type} {good good' : Prop} {p : α → Prop} {q : β → Prop} {place place' : Place}
  {room' : Nat} {x : Except Failure (α × Cursor)} {f : α × Cursor → Except Failure (β × Cursor)}

theorem imp (h : Keeps good' p place room x) (hg : good → good') : Keeps good p place room x := by
  rcases x with (⟨reason, position⟩ | f) | ⟨a, c⟩
  · trivial
  · exact ⟨h.1, fun hgood => h.2 (hg hgood)⟩
  · exact ⟨h.1, fun hgood => h.2 (hg hgood)⟩

theorem bind (h : Keeps good p place room x)
    (hf : ∀ a c, p a → Keeps (keeps place room c.rest = true) q place' room' (f (a, c))) :
    Keeps good q place' room' (x >>= f) := by
  rcases x with (⟨reason, position⟩ | f) | ⟨a, c⟩
  · trivial
  · exact h
  · exact (hf a c h.1).imp h.2

theorem map {f : α → β} (h : Keeps good p place room x) (hf : ∀ a, p a → q (f a)) :
    Keeps good q place room (x >>= fun r => pure (f r.1, r.2)) :=
  h.bind fun a _ ha => ⟨hf a ha, id⟩

end Keeps

theorem hexValue?_ne {n : Nat} (h : hexValue? ch = some n) : ch ≠ '\\' ∧ ch ≠ '\x22' := by
  constructor
  · rintro rfl
    cases h
  · rintro rfl
    cases h

theorem keeps_codeUnit? {n : Nat} (h : codeUnit? cs = some (n, rest))
    (hcs : keeps .inside room cs = true) : keeps .inside room rest = true := by
  unfold codeUnit? at h
  split at h
  · rename_i a b c d e rest'
    obtain ⟨a', ha, h⟩ := Option.bind_eq_some_iff.mp h
    obtain ⟨b', hb, h⟩ := Option.bind_eq_some_iff.mp h
    obtain ⟨c', hc, h⟩ := Option.bind_eq_some_iff.mp h
    obtain ⟨d', hd, h⟩ := Option.bind_eq_some_iff.mp h
    cases h
    rwa [keeps_inside_cons (hexValue?_ne ha).1 (hexValue?_ne ha).2,
      keeps_inside_cons (hexValue?_ne hb).1 (hexValue?_ne hb).2,
      keeps_inside_cons (hexValue?_ne hc).1 (hexValue?_ne hc).2,
      keeps_inside_cons (hexValue?_ne hd).1 (hexValue?_ne hd).2] at hcs
  · cases h

theorem keeps_unicodeEscape (room : Nat) (c : Cursor) :
    Keeps (keeps .inside room c.rest = true) (fun _ => True) .inside room (unicodeEscape c) := by
  unfold unicodeEscape
  split
  · trivial
  · rename_i n rest hunit
    dsimp only
    have halone : keeps .inside room c.rest = true → keeps .inside room rest = true :=
      keeps_codeUnit? hunit
    split
    · split
      · exact ⟨trivial, halone⟩
      · split
        · trivial
        · rename_i hmore
          split
          · exact ⟨trivial, fun hc => keeps_codeUnit? hmore (halone hc)⟩
          · exact ⟨trivial, halone⟩
    · exact ⟨trivial, halone⟩

theorem keeps_stringBody (room start fuel : Nat) (c : Cursor) :
    Keeps (keeps .inside room c.rest = true) (fun _ => True) .outside room
      (stringBody start fuel c) := by
  induction fuel generalizing c with
  | zero => trivial
  | succ fuel ih =>
    rw [stringBody]
    obtain ⟨position, rest⟩ := c
    dsimp only
    split
    · trivial
    · exact ⟨trivial, id⟩
    · trivial
    · refine Keeps.bind (keeps_unicodeEscape room _) fun p c _ => ?_
      exact (ih c).map fun _ _ => trivial
    · split
      · trivial
      · exact ((ih _).map fun _ _ => trivial)
    · split
      · trivial
      · rename_i ch tail hquote hlast _ hescape _
        refine ((ih _).map fun _ _ => trivial).imp fun h => ?_
        have hbackslash : ch ≠ '\\' := by
          intro hch
          cases tail with
          | nil => exact hlast hch rfl
          | cons e tail => exact hescape e tail hch rfl
        rwa [keeps_inside_cons hbackslash hquote] at h

theorem keeps_string {c : Cursor} (hc : c.rest = '\x22' :: rest) (room : Nat) :
    Keeps (keeps .outside room c.rest = true) (fun _ => True) .outside room (string c) := by
  refine ((keeps_stringBody room _ _ (c.skip 1)).map fun _ _ => trivial).imp fun h => ?_
  rw [hc] at h
  rwa [Cursor.skip, hc]

def Leads (l cs : List Char) : Prop := l <+: cs ∧ ∀ ch ∈ l, isPlain ch = true

namespace Leads

variable {l m : List Char} {p : Char → Bool}

theorem nil (cs : List Char) : Leads [] cs :=
  ⟨List.nil_prefix, fun _ h => absurd h List.not_mem_nil⟩

theorem cons (hch : isPlain ch = true) (h : Leads l cs) : Leads (ch :: l) (ch :: cs) :=
  ⟨List.cons_prefix_cons.mpr ⟨rfl, h.1⟩, List.forall_mem_cons.mpr ⟨hch, h.2⟩⟩

theorem append (hl : Leads l cs) (hm : Leads m (cs.drop l.length)) : Leads (l ++ m) cs := by
  obtain ⟨⟨t, rfl⟩, hl⟩ := hl
  rw [List.drop_left] at hm
  obtain ⟨⟨u, rfl⟩, hm⟩ := hm
  refine ⟨⟨u, List.append_assoc l m u⟩, fun ch h => ?_⟩
  exact (List.mem_append.mp h).elim (hl ch) (hm ch)

theorem takeWhile (hp : ∀ ch, p ch = true → isPlain ch = true) (cs : List Char) :
    Leads (cs.takeWhile p) cs :=
  ⟨List.takeWhile_prefix p, fun ch h => hp ch (List.all_eq_true.mp List.all_takeWhile ch h)⟩

theorem keeps_skip (h : Leads l c.rest) (hc : keeps .outside room c.rest = true) :
    keeps .outside room (c.skip l.length).rest = true := by
  obtain ⟨⟨t, ht⟩, hl⟩ := h
  rw [← ht] at hc
  rw [Cursor.skip, ← ht, List.drop_left]
  exact keeps_of_append hl hc

end Leads

theorem isPlain_of_isSpace (h : isSpace ch = true) : isPlain ch = true := by
  simp only [isSpace, Bool.or_eq_true, decide_eq_true_eq] at h
  rcases h with ((rfl | rfl) | rfl) | rfl <;> rfl

theorem keeps_skipSpace (h : keeps .outside room c.rest = true) :
    keeps .outside room c.skipSpace.rest = true :=
  (Leads.takeWhile (fun _ => isPlain_of_isSpace) c.rest).keeps_skip h

theorem leads_digits (cs : List Char) : Leads (cs.takeWhile isDigit) cs :=
  .takeWhile (fun _ => isPlain_of_isDigit) cs

theorem leads_wholeDigits (cs : List Char) : Leads (wholeDigits cs) cs := by
  unfold wholeDigits
  split
  · exact .cons rfl (.nil _)
  · exact leads_digits cs

theorem length_wholeDigits_le (cs : List Char) :
    (wholeDigits cs).length ≤ (cs.takeWhile isDigit).length := by
  unfold wholeDigits
  split
  · rw [List.takeWhile_cons_of_pos rfl]
    exact Nat.succ_le_succ (Nat.zero_le _)
  · exact Nat.le_refl _

theorem leads_fractionPart (cs : List Char) : Leads (fractionPart cs) cs := by
  unfold fractionPart
  split
  · dsimp only
    split
    · exact .nil _
    · exact .cons rfl (leads_digits _)
  · exact .nil _

theorem leads_exponentPart (cs : List Char) : Leads (exponentPart cs) cs := by
  unfold exponentPart
  split
  · exact .nil _
  · rename_i e cs
    split
    · rename_i he
      extract_lets sign ds
      have hsign : Leads sign cs := by
        dsimp only [sign]
        split
        · exact .cons rfl (.nil _)
        · exact .cons rfl (.nil _)
        · exact .nil _
      have hplain : isPlain e = true := by
        rcases he with rfl | rfl <;> rfl
      split
      · exact .nil _
      · exact .cons hplain (hsign.append (leads_digits _))
    · exact .nil _

theorem keeps_number (room : Nat) (c : Cursor) :
    Keeps (keeps .outside room c.rest = true) (Value.Fits room) .outside room (number c) := by
  unfold number
  extract_lets sign cs whole cs' fraction exponent numeral after
  have hsign : Leads sign c.rest ∧ sign.countP Decimal.isAnyDigit = 0 := by
    dsimp only [sign]
    split
    · rename_i hrest
      rw [hrest]
      exact ⟨.cons rfl (.nil _), by decide⟩
    · exact ⟨.nil _, rfl⟩
  have hwhole : Leads (sign ++ whole) c.rest := hsign.1.append (leads_wholeDigits cs)
  have hafter (h : keeps .outside room c.rest = true) : keeps .outside room after.rest = true := by
    refine Leads.keeps_skip ?_ h
    refine (hwhole.append ?_).append ?_
    · rw [List.length_append, ← List.drop_drop]
      exact leads_fractionPart cs'
    · rw [List.length_append, List.length_append, ← List.drop_drop, ← List.drop_drop]
      exact leads_exponentPart _
  split
  · trivial
  split
  · rename_i hinteger
    have hread := Decimal.readInteger_outcome (String.ofList numeral)
    split
    · rename_i n hn
      exact ⟨Value.fits_int (hread.1 n hn) room, hafter⟩
    · rename_i digits hdigits
      have hlong := hread.2 digits hdigits
      refine ⟨.inl ⟨digits, hlong.1, rfl⟩, fun h => ?_⟩
      -- The digits of the numeral are those of its whole part, which the text keeps short.
      have hcs : keeps .outside room cs = true := hsign.1.keeps_skip h
      have hle := Nat.le_trans (length_wholeDigits_le cs) (length_takeWhile_le hcs)
      have hnumeral : numeral = sign ++ whole := by
        dsimp only [numeral]
        rw [List.isEmpty_iff.mp hinteger.1, List.isEmpty_iff.mp hinteger.2, List.append_nil,
          List.append_nil]
      have hchars : ((String.ofList numeral : Text)).chars = sign ++ whole := by
        rw [Text.chars, String.toList_ofList, hnumeral]
        exact List.append_nil _
      have hcount : digits ≤ whole.length := by
        rw [hchars, List.countP_append, hsign.2, Nat.zero_add] at hlong
        exact Nat.le_trans hlong.2 List.countP_le_length
      exact Nat.not_lt.mpr (Nat.le_trans hcount hle) hlong.1
    · trivial
  · split
    · exact ⟨Value.fits_of_isScalar rfl room, hafter⟩
    · trivial

theorem plain_words : words.all (fun w => w.1.toList.all isPlain) = true := by decide

theorem keeps_scalar (room : Nat) (c : Cursor) :
    Keeps (keeps .outside room c.rest = true) (Value.Fits room) .outside room (scalar c) := by
  unfold scalar
  split
  · rename_i word v hfind
    have hmem := List.mem_of_find?_eq_some hfind
    have hprefix := List.find?_some hfind
    have hleads : Leads word.toList c.rest :=
      ⟨List.isPrefixOf_iff_prefix.mp hprefix,
        List.all_eq_true.mp (List.all_eq_true.mp plain_words _ hmem)⟩
    refine ⟨?_, fun h => ?_⟩
    · simp only [words, List.mem_cons, List.not_mem_nil, or_false, Prod.mk.injEq] at hmem
      rcases hmem with ⟨-, rfl⟩ | ⟨-, rfl⟩ | ⟨-, rfl⟩ | ⟨-, rfl⟩ | ⟨-, rfl⟩ | ⟨-, rfl⟩ <;>
        exact Value.fits_of_isScalar rfl room
    · rw [← String.length_toList]
      exact hleads.keeps_skip h
  · exact keeps_number room c

theorem keeps_closing {d : Char} (hd : d = ']' ∨ d = '\x7d') (hc : c.rest = d :: rest)
    (h : keeps .outside room c.rest = true) : keeps .outside (room + 1) (c.skip 1).rest = true := by
  rw [hc] at h
  rw [Cursor.skip, hc]
  rcases hd with rfl | rfl <;> exact h

theorem keeps_separator {d : Char} (hd : isPlain d = true) (hc : c.rest = d :: rest)
    (h : keeps .outside room c.rest = true) :
    keeps .outside room (c.skip 1).skipSpace.rest = true := by
  have hleads : Leads [d] c.rest := by
    rw [hc]
    exact .cons hd (.nil _)
  exact keeps_skipSpace (hleads.keeps_skip h)

theorem keeps_descend {d : Char} {shape : String} {p : Value → Prop}
    {f : Nat → Except Failure (Value × Cursor)} (hd : d = '[' ∨ d = '\x7b')
    (hc : c.rest = d :: rest)
    (hf : ∀ inner, room = inner + 1 →
      Keeps (keeps .outside inner (c.skip 1).skipSpace.rest = true) p .outside room (f inner)) :
    Keeps (keeps .outside room c.rest = true) p .outside room (descend shape room >>= f) := by
  cases room with
  | zero =>
    refine ⟨.inr ⟨shape, rfl⟩, fun h => ?_⟩
    rw [hc] at h
    rcases hd with rfl | rfl <;> cases h
  | succ inner =>
    refine (hf inner rfl).imp fun h => keeps_skipSpace ?_
    rw [hc] at h
    rw [Cursor.skip, hc]
    rcases hd with rfl | rfl <;> exact h

/-- The three readers of values keep to the limits with this fuel. Items and members give back the
room of their array or object with its closing bracket. -/
structure KeepsWith (fuel : Nat) : Prop where
  value : ∀ room c, Keeps (keeps .outside room c.rest = true) (Value.Fits room) .outside room
    (value fuel room c)
  items : ∀ room c, Keeps (keeps .outside room c.rest = true) (∀ v ∈ ·, v.Fits room) .outside
    (room + 1) (items fuel room c)
  members : ∀ room c (m : OrderedMap Text Value), (∀ v ∈ m.values, v.Fits room) →
    Keeps (keeps .outside room c.rest = true) (fun m => ∀ v ∈ m.values, v.Fits room) .outside
      (room + 1) (members fuel room m c)

section

variable {fuel : Nat} (h : KeepsWith fuel)

include h

theorem keeps_value (room : Nat) (c : Cursor) :
    Keeps (keeps .outside room c.rest = true) (Value.Fits room) .outside room
      (value (fuel + 1) room c) := by
  rw [value]
  split
  · rename_i hc
    exact (keeps_string hc room).map fun _ _ => Value.fits_of_isScalar rfl room
  · rename_i hc
    refine keeps_descend (.inr rfl) hc fun inner hroom => ?_
    subst hroom
    dsimp only
    split
    · rename_i hclose
      exact ⟨Value.fits_record (m := {}) nofun, keeps_closing (.inr rfl) hclose⟩
    · exact (h.members inner _ {} nofun).map fun _ => Value.fits_record
  · rename_i hc
    refine keeps_descend (.inl rfl) hc fun inner hroom => ?_
    subst hroom
    dsimp only
    split
    · rename_i hclose
      exact ⟨Value.fits_list nofun, keeps_closing (.inl rfl) hclose⟩
    · exact (h.items inner _).map fun _ => Value.fits_list
  · exact keeps_scalar room c

theorem keeps_items (room : Nat) (c : Cursor) :
    Keeps (keeps .outside room c.rest = true) (∀ v ∈ ·, v.Fits room) .outside (room + 1)
      (items (fuel + 1) room c) := by
  rw [items]
  refine (h.value room c).bind fun v c hv => ?_
  dsimp only
  split
  · rename_i hclose
    refine ⟨List.forall_mem_singleton.mpr hv, fun hc => ?_⟩
    exact keeps_closing (.inl rfl) hclose (keeps_skipSpace hc)
  · rename_i hcomma
    refine Keeps.imp ?_ fun hc => keeps_separator rfl hcomma (keeps_skipSpace hc)
    exact (h.items room _).map fun vs hvs => List.forall_mem_cons.mpr ⟨hv, hvs⟩
  · trivial

theorem keeps_members (room : Nat) (c : Cursor) {m : OrderedMap Text Value}
    (hm : ∀ v ∈ m.values, v.Fits room) :
    Keeps (keeps .outside room c.rest = true) (fun m => ∀ v ∈ m.values, v.Fits room) .outside
      (room + 1) (members (fuel + 1) room m c) := by
  rw [members]
  split
  · rename_i hc
    refine (keeps_string hc room).bind fun key c _ => ?_
    dsimp only
    split
    · rename_i hcolon
      refine Keeps.imp ?_ fun hc => keeps_separator rfl hcolon (keeps_skipSpace hc)
      refine (h.value room _).bind fun v c hv => ?_
      have hinsert : ∀ w ∈ (m.insert key v).values, w.Fits room := by
        intro w hw
        rcases OrderedMap.mem_values_insert hw with rfl | hw
        · exact hv
        · exact hm w hw
      dsimp only
      split
      · rename_i hclose
        exact ⟨hinsert, fun hc => keeps_closing (.inr rfl) hclose (keeps_skipSpace hc)⟩
      · rename_i hcomma
        refine Keeps.imp ?_ fun hc => keeps_separator rfl hcomma (keeps_skipSpace hc)
        exact h.members room _ _ hinsert
      · trivial
    · trivial
  · trivial

end

theorem keepsWith (fuel : Nat) : KeepsWith fuel := by
  induction fuel with
  | zero => exact ⟨fun _ _ => trivial, fun _ _ => trivial, fun _ _ _ _ => trivial⟩
  | succ fuel ih =>
    exact ⟨keeps_value ih, keeps_items ih, fun room c _ hm => keeps_members ih room c hm⟩

/-- What becomes of a text: what is read can be written, and there is a fault only if the text does
not keep to the limits. -/
theorem read_cases (s : String) :
    (∃ v, read s = .ok v ∧ v.Fits maxDepth) ∨
    (∃ reason position, read s = .error (.malformed reason position)) ∨
    ∃ f, read s = .error (.fault f) ∧ Excessive f ∧ keeps .outside maxDepth s.toList = false := by
  unfold read
  dsimp only
  split
  · exact .inr (.inl ⟨_, _, rfl⟩)
  · have hvalue := (keepsWith (2 * s.toList.length + 2)).value maxDepth
      (Cursor.skipSpace ⟨0, s.toList⟩)
    generalize value (2 * s.toList.length + 2) maxDepth (Cursor.skipSpace ⟨0, s.toList⟩) = x
      at hvalue ⊢
    rcases x with (⟨reason, position⟩ | f) | ⟨v, c⟩
    · exact .inr (.inl ⟨reason, position, rfl⟩)
    · refine .inr (.inr ⟨f, rfl, hvalue.1, ?_⟩)
      exact Bool.eq_false_iff.mpr fun h => hvalue.2 (keeps_skipSpace h)
    · by_cases hend : c.skipSpace.rest.isEmpty = true
      · exact .inl ⟨v, if_pos hend, hvalue.1⟩
      · exact .inr (.inl ⟨_, _, if_neg hend⟩)

theorem fits_of_read {s : String} {v : Value} (h : read s = .ok v) : v.Fits maxDepth := by
  rcases read_cases s with ⟨w, hw, hfits⟩ | ⟨_, _, hfailed⟩ | ⟨_, hfailed, -⟩
  · cases h.symm.trans hw
    exact hfits
  · cases h.symm.trans hfailed
  · cases h.symm.trans hfailed

end Json

end NodeScript
