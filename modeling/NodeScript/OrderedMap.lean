/-!
Maps whose entries keep the order in which their keys first arrived. Overwriting a key leaves it in
its place, erasing it and inserting it again moves it to the end.

Lists are indexed by a key in two ways: `firstBy` keeps the first item of each key, `groupBy` keeps
all of them in order.
-/

namespace NodeScript

structure OrderedMap (κ α : Type) where
  entries : List (κ × α) := []
  deriving Repr

namespace OrderedMap

variable {κ α : Type} [DecidableEq κ]

def keys (m : OrderedMap κ α) : List κ := m.entries.map Prod.fst

def values (m : OrderedMap κ α) : List α := m.entries.map Prod.snd

def size (m : OrderedMap κ α) : Nat := m.entries.length

def find (k : κ) : List (κ × α) → Option α
  | [] => none
  | e :: es => if e.1 = k then some e.2 else find k es

def get? (m : OrderedMap κ α) (k : κ) : Option α := find k m.entries

def contains (m : OrderedMap κ α) (k : κ) : Bool := (m.get? k).isSome

/-- Replace the value of `k` in its place, or add it at the end. -/
def put (k : κ) (a : α) : List (κ × α) → List (κ × α)
  | [] => [(k, a)]
  | e :: es => if e.1 = k then (k, a) :: es else e :: put k a es

def insert (m : OrderedMap κ α) (k : κ) (a : α) : OrderedMap κ α := ⟨put k a m.entries⟩

/-- Add `k` at the end unless the map has it already. -/
def insertNew (m : OrderedMap κ α) (k : κ) (a : α) : OrderedMap κ α :=
  if m.contains k then m else ⟨m.entries ++ [(k, a)]⟩

def erase (m : OrderedMap κ α) (k : κ) : OrderedMap κ α :=
  ⟨m.entries.filter (fun e => decide (e.1 ≠ k))⟩

/-- Insert the pairs from left to right, so that the last value of a key wins. -/
def insertMany (m : OrderedMap κ α) (es : List (κ × α)) : OrderedMap κ α :=
  es.foldl (fun m e => m.insert e.1 e.2) m

def ofList (es : List (κ × α)) : OrderedMap κ α := insertMany {} es

def firstBy (key : α → κ) (as : List α) : OrderedMap κ α :=
  as.foldl (fun m a => m.insertNew (key a) a) {}

def groupBy (key : α → κ) (as : List α) : OrderedMap κ (List α) :=
  as.foldl (fun m a => m.insert (key a) ((m.get? (key a)).getD [] ++ [a])) {}

/-- Every value is stored under its own key. -/
def KeyedBy (key : α → κ) (m : OrderedMap κ α) : Prop := ∀ e ∈ m.entries, e.1 = key e.2

@[simp] theorem get?_empty (k : κ) : get? ({} : OrderedMap κ α) k = none := rfl

theorem find_put_self (k : κ) (a : α) (es : List (κ × α)) : find k (put k a es) = some a := by
  induction es with
  | nil => simp [put, find]
  | cons e es ih => by_cases h : e.1 = k <;> simp [put, find, h, ih]

theorem find_put_of_ne {k l : κ} (h : l ≠ k) (a : α) (es : List (κ × α)) :
    find l (put k a es) = find l es := by
  induction es with
  | nil => simp [put, find, Ne.symm h]
  | cons e es ih =>
    by_cases he : e.1 = k
    · simp [put, find, he, Ne.symm h]
    · simp [put, find, he, ih]

@[simp] theorem get?_insert_self (m : OrderedMap κ α) (k : κ) (a : α) :
    (m.insert k a).get? k = some a := find_put_self k a m.entries

theorem get?_insert_of_ne (m : OrderedMap κ α) {k l : κ} (h : l ≠ k) (a : α) :
    (m.insert k a).get? l = m.get? l := find_put_of_ne h a m.entries

@[simp] theorem get?_erase_self (m : OrderedMap κ α) (k : κ) : (m.erase k).get? k = none := by
  obtain ⟨es⟩ := m
  show find k (es.filter fun e => decide (e.1 ≠ k)) = none
  induction es with
  | nil => rfl
  | cons e es ih => by_cases h : e.1 = k <;> simp [find, h] <;> simpa using ih

theorem get?_erase_of_ne (m : OrderedMap κ α) {k l : κ} (h : l ≠ k) :
    (m.erase k).get? l = m.get? l := by
  obtain ⟨es⟩ := m
  show find l (es.filter fun e => decide (e.1 ≠ k)) = find l es
  induction es with
  | nil => rfl
  | cons e es ih =>
    by_cases he : e.1 = k
    · have hl : e.1 ≠ l := fun hl => h (hl.symm.trans he)
      rw [List.filter_cons_of_neg (by simpa using he), find, if_neg hl]
      exact ih
    · rw [List.filter_cons_of_pos (by simpa using he), find, find, ih]

theorem put_put (k : κ) (a b : α) (es : List (κ × α)) : put k b (put k a es) = put k b es := by
  induction es with
  | nil => simp [put]
  | cons e es ih => by_cases h : e.1 = k <;> simp [put, h, ih]

theorem insert_insert_self (m : OrderedMap κ α) (k : κ) (a b : α) :
    (m.insert k a).insert k b = m.insert k b := congrArg mk (put_put k a b m.entries)

theorem filter_put (k : κ) (a : α) (es : List (κ × α)) :
    (put k a es).filter (fun e => decide (e.1 ≠ k)) = es.filter (fun e => decide (e.1 ≠ k)) := by
  induction es with
  | nil => simp [put]
  | cons e es ih =>
    by_cases h : e.1 = k
    · simp [put, h]
    · rw [put, if_neg h, List.filter_cons, List.filter_cons, ih]

theorem erase_insert_self (m : OrderedMap κ α) (k : κ) (a : α) :
    (m.insert k a).erase k = m.erase k := congrArg mk (filter_put k a m.entries)

theorem find_eq_none_iff {k : κ} {es : List (κ × α)} :
    find k es = none ↔ k ∉ es.map Prod.fst := by
  induction es with
  | nil => simp [find]
  | cons e es ih =>
    by_cases h : e.1 = k
    · simp [find, h]
    · simp [find, h, ih, Ne.symm h]

theorem mem_of_find {k : κ} {a : α} {es : List (κ × α)} (h : find k es = some a) : (k, a) ∈ es := by
  induction es with
  | nil => simp [find] at h
  | cons e es ih =>
    by_cases he : e.1 = k
    · rw [find, if_pos he, Option.some.injEq] at h
      subst he h
      exact List.mem_cons_self
    · rw [find, if_neg he] at h
      exact List.mem_cons_of_mem e (ih h)

theorem mem_of_get? {m : OrderedMap κ α} {k : κ} {a : α} (h : m.get? k = some a) :
    (k, a) ∈ m.entries := mem_of_find h

theorem contains_eq_false_iff {m : OrderedMap κ α} {k : κ} : m.contains k = false ↔ k ∉ m.keys := by
  rw [contains, Option.isSome_eq_false_iff, Option.isNone_iff_eq_none]
  exact find_eq_none_iff

theorem put_of_not_mem {k : κ} {es : List (κ × α)} (h : k ∉ es.map Prod.fst) (a : α) :
    put k a es = es ++ [(k, a)] := by
  induction es with
  | nil => rfl
  | cons e es ih =>
    rw [List.map_cons, List.mem_cons, not_or] at h
    rw [put, if_neg (Ne.symm h.1), ih h.2]
    rfl

theorem insert_of_not_mem {m : OrderedMap κ α} {k : κ} (h : k ∉ m.keys) (a : α) :
    m.insert k a = ⟨m.entries ++ [(k, a)]⟩ := congrArg mk (put_of_not_mem h a)

theorem erase_of_not_mem {m : OrderedMap κ α} {k : κ} (h : k ∉ m.keys) : m.erase k = m := by
  have hall : ∀ e ∈ m.entries, decide (e.1 ≠ k) = true := by
    intro e he
    rw [decide_eq_true_iff]
    rintro rfl
    exact h (List.mem_map.mpr ⟨e, he, rfl⟩)
  rw [erase, List.filter_eq_self.mpr hall]

theorem erase_erase_self (m : OrderedMap κ α) (k : κ) : (m.erase k).erase k = m.erase k := by
  simp only [erase, List.filter_filter, Bool.and_self]

omit [DecidableEq κ] in
theorem KeyedBy.keys_eq {key : α → κ} {m : OrderedMap κ α} (h : m.KeyedBy key) :
    m.keys = m.values.map key := by
  rw [keys, values, List.map_map]
  exact List.map_congr_left h

omit [DecidableEq κ] in
theorem KeyedBy.entries_eq {key : α → κ} {m : OrderedMap κ α} (h : m.KeyedBy key) :
    m.entries = m.values.map fun a => (key a, a) := by
  rw [values, List.map_map]
  refine (List.map_id _).symm.trans (List.map_congr_left ?_)
  intro e he
  exact Prod.ext (h e he) rfl

theorem mem_put {k : κ} {a : α} {es : List (κ × α)} {e : κ × α} (h : e ∈ put k a es) :
    e = (k, a) ∨ e ∈ es := by
  induction es with
  | nil => exact .inl (List.mem_singleton.mp h)
  | cons d es ih =>
    by_cases hd : d.1 = k
    · rw [put, if_pos hd, List.mem_cons] at h
      exact h.imp_right (List.mem_cons_of_mem d)
    · rw [put, if_neg hd, List.mem_cons] at h
      rcases h with rfl | h
      · exact .inr List.mem_cons_self
      · exact (ih h).imp_right (List.mem_cons_of_mem d)

theorem mem_values_insert {m : OrderedMap κ α} {k : κ} {a b : α} (h : b ∈ (m.insert k a).values) :
    b = a ∨ b ∈ m.values := by
  obtain ⟨e, he, rfl⟩ := List.mem_map.mp h
  rcases mem_put he with rfl | he
  · exact .inl rfl
  · exact .inr (List.mem_map.mpr ⟨e, he, rfl⟩)

theorem keys_insert (m : OrderedMap κ α) (k : κ) (a : α) :
    (m.insert k a).keys = if k ∈ m.keys then m.keys else m.keys ++ [k] := by
  obtain ⟨es⟩ := m
  show (put k a es).map Prod.fst =
    if k ∈ es.map Prod.fst then es.map Prod.fst else es.map Prod.fst ++ [k]
  induction es with
  | nil => rfl
  | cons e es ih =>
    by_cases he : e.1 = k
    · simp [put, he]
    · rw [put, if_neg he, List.map_cons, List.map_cons, ih]
      by_cases hk : k ∈ es.map Prod.fst
      · rw [if_pos hk, if_pos (List.mem_cons_of_mem _ hk)]
      · have hcons : k ∉ e.1 :: es.map Prod.fst := by
          rw [List.mem_cons, not_or]
          exact ⟨Ne.symm he, hk⟩
        rw [if_neg hk, if_neg hcons, List.cons_append]

/-- Keys keep their places, and only new ones are added, each once. -/
theorem keys_insertMany (m : OrderedMap κ α) (es : List (κ × α)) :
    m.keys <+: (m.insertMany es).keys ∧ (m.keys.Nodup → (m.insertMany es).keys.Nodup) := by
  induction es generalizing m with
  | nil => exact ⟨List.prefix_rfl, id⟩
  | cons e es ih =>
    obtain ⟨hfirst, hnodup⟩ := ih (m.insert e.1 e.2)
    rw [keys_insert] at hfirst hnodup
    by_cases hk : e.1 ∈ m.keys
    · rw [if_pos hk] at hfirst hnodup
      exact ⟨hfirst, hnodup⟩
    · rw [if_neg hk] at hfirst hnodup
      refine ⟨(List.prefix_append _ _).trans hfirst, fun h => hnodup ?_⟩
      rw [List.nodup_append]
      refine ⟨h, by simp, fun a ha b hb hab => hk ?_⟩
      rw [← List.mem_singleton.mp hb, ← hab]
      exact ha

theorem put_append_cons {k : κ} {done : List (κ × α)} (h : k ∉ done.map Prod.fst) (a b : α)
    (rest : List (κ × α)) : put k a (done ++ (k, b) :: rest) = done ++ (k, a) :: rest := by
  induction done with
  | nil => simp [put]
  | cons e done ih =>
    rw [List.map_cons, List.mem_cons, not_or] at h
    rw [List.cons_append, put, if_neg (Ne.symm h.1), ih h.2, List.cons_append]

/-- Pairs with the keys of a map, in their order, replace all that it holds. -/
theorem insertMany_of_keys_eq {m : OrderedMap κ α} {es : List (κ × α)}
    (hkeys : es.map Prod.fst = m.keys) (hnodup : m.keys.Nodup) : m.insertMany es = ⟨es⟩ := by
  -- The pairs that have been inserted come first, and the old ones follow.
  suffices h : ∀ done old : List (κ × α), es.map Prod.fst = old.map Prod.fst →
      ((done ++ old).map Prod.fst).Nodup → insertMany ⟨done ++ old⟩ es = ⟨done ++ es⟩ from
    h [] m.entries hkeys hnodup
  clear hkeys hnodup
  induction es with
  | nil =>
    intro done old hkeys _
    rw [List.map_eq_nil_iff.mp hkeys.symm]
    rfl
  | cons e es ih =>
    rintro done (_ | ⟨⟨k, b⟩, old⟩) hkeys hnodup
    · cases hkeys
    · obtain ⟨rfl, hrest⟩ := List.cons_eq_cons.mp hkeys
      have hdone : e.1 ∉ done.map Prod.fst := by
        rw [List.map_append, List.nodup_append] at hnodup
        exact fun hk => hnodup.2.2 _ hk _ List.mem_cons_self rfl
      have hstep : insert ⟨done ++ (e.1, b) :: old⟩ e.1 e.2 = ⟨done ++ [e] ++ old⟩ := by
        rw [insert, put_append_cons hdone, List.append_assoc]
        rfl
      have hnext := ih (done ++ [e]) old hrest (by simpa using hnodup)
      rw [← hstep, List.append_assoc] at hnext
      exact hnext

theorem insertMany_of_nodup {m : OrderedMap κ α} {es : List (κ × α)}
    (h : (m.keys ++ es.map Prod.fst).Nodup) : m.insertMany es = ⟨m.entries ++ es⟩ := by
  induction es generalizing m with
  | nil =>
    rw [List.append_nil]
    rfl
  | cons e es ih =>
    have hk : e.1 ∉ m.keys := by
      rw [List.nodup_append] at h
      exact fun hk => h.2.2 _ hk _ List.mem_cons_self rfl
    have hnext := ih (m := m.insert e.1 e.2) (by rw [keys_insert, if_neg hk]; simpa using h)
    rw [insert_of_not_mem hk, List.append_assoc] at hnext
    rw [insertMany, List.foldl_cons, insert_of_not_mem hk]
    exact hnext

/-- A map that begins with the keys of `m` can be had from `m` by inserting its entries. -/
theorem insertMany_entries {m n : OrderedMap κ α} (hfirst : m.keys <+: n.keys)
    (hnodup : n.keys.Nodup) : m.insertMany n.entries = n := by
  obtain ⟨es⟩ := n
  obtain ⟨new, hnew⟩ := hfirst
  change m.keys ++ new = es.map Prod.fst at hnew
  obtain ⟨es, fs, rfl, hes, rfl⟩ := List.map_eq_append_iff.mp hnew.symm
  have hm : m.keys.Nodup := by
    rw [keys, List.map_append, List.nodup_append] at hnodup
    exact hes ▸ hnodup.1
  have hfirst : m.insertMany es = ⟨es⟩ := insertMany_of_keys_eq hes hm
  rw [insertMany, List.foldl_append]
  rw [insertMany] at hfirst
  rw [hfirst]
  exact insertMany_of_nodup (by rwa [keys, List.map_append] at hnodup)

theorem size_eq_zero_of_forall_get? {m : OrderedMap κ α} (h : ∀ k, m.get? k = none) :
    m.size = 0 := by
  obtain ⟨es⟩ := m
  cases es with
  | nil => rfl
  | cons e es =>
    have he := find_eq_none_iff.1 (h e.1)
    exact absurd (List.mem_map.2 ⟨e, List.mem_cons_self, rfl⟩) he

theorem nodup_keys_insertNew {m : OrderedMap κ α} (h : m.keys.Nodup) (k : κ) (a : α) :
    (m.insertNew k a).keys.Nodup := by
  unfold insertNew
  split
  · exact h
  · rename_i hk
    have hk := contains_eq_false_iff.1 (Bool.eq_false_iff.2 hk)
    simp only [keys, List.map_append, List.map_cons, List.map_nil]
    rw [List.nodup_append]
    refine ⟨h, by simp, ?_⟩
    intro x hx y hy hxy
    rw [List.mem_singleton] at hy
    exact hk (hy ▸ hxy ▸ hx)

theorem keyedBy_insertNew {key : α → κ} {m : OrderedMap κ α} (h : m.KeyedBy key) (a : α) :
    (m.insertNew (key a) a).KeyedBy key := by
  unfold insertNew
  split
  · exact h
  · intro e he
    rcases List.mem_append.1 he with he | he
    · exact h e he
    · rw [List.mem_singleton.1 he]

theorem nodup_keys_firstBy (key : α → κ) (as : List α) : (firstBy key as).keys.Nodup := by
  suffices h : ∀ m : OrderedMap κ α, m.keys.Nodup →
      (as.foldl (fun m a => m.insertNew (key a) a) m).keys.Nodup from h {} List.nodup_nil
  induction as with
  | nil => exact fun _ h => h
  | cons a as ih => exact fun m h => ih _ (nodup_keys_insertNew h (key a) a)

theorem keyedBy_firstBy (key : α → κ) (as : List α) : (firstBy key as).KeyedBy key := by
  suffices h : ∀ m : OrderedMap κ α, m.KeyedBy key →
      (as.foldl (fun m a => m.insertNew (key a) a) m).KeyedBy key from
    h {} fun _ he => absurd he List.not_mem_nil
  induction as with
  | nil => exact fun _ h => h
  | cons a as ih => exact fun m h => ih _ (keyedBy_insertNew h a)

theorem mem_of_mem_firstBy {key : α → κ} {as : List α} {e : κ × α}
    (h : e ∈ (firstBy key as).entries) : e.2 ∈ as := by
  suffices hm : ∀ m : OrderedMap κ α,
      e ∈ (as.foldl (fun m a => m.insertNew (key a) a) m).entries → e ∈ m.entries ∨ e.2 ∈ as from
    (hm {} h).resolve_left List.not_mem_nil
  clear h
  induction as with
  | nil => exact fun _ h => .inl h
  | cons a as ih =>
    intro m hm
    rcases ih (m.insertNew (key a) a) hm with h | h
    · unfold insertNew at h
      split at h
      · exact .inl h
      · rcases List.mem_append.1 h with h | h
        · exact .inl h
        · rw [List.mem_singleton.1 h]
          exact .inr List.mem_cons_self
    · exact .inr (List.mem_cons_of_mem a h)

theorem find_append (k : κ) (es fs : List (κ × α)) :
    find k (es ++ fs) = (find k es).or (find k fs) := by
  induction es with
  | nil => rfl
  | cons e es ih => by_cases h : e.1 = k <;> simp [find, h, ih]

theorem get?_insertNew (m : OrderedMap κ α) (k l : κ) (a : α) :
    (m.insertNew k a).get? l = (m.get? l).or (if k = l then some a else none) := by
  unfold insertNew
  split
  · rename_i h
    obtain ⟨b, hb⟩ := Option.isSome_iff_exists.1 h
    by_cases hl : k = l
    · subst hl
      rw [hb, Option.some_or]
    · rw [if_neg hl, Option.or_none]
  · exact find_append l m.entries [(k, a)]

theorem get?_firstBy (key : α → κ) (as : List α) (k : κ) :
    (firstBy key as).get? k = as.find? (key · = k) := by
  suffices h : ∀ m : OrderedMap κ α, (as.foldl (fun m a => m.insertNew (key a) a) m).get? k =
      (m.get? k).or (as.find? (key · = k)) from h {}
  induction as with
  | nil => simp
  | cons a as ih =>
    intro m
    rw [List.foldl_cons, ih, get?_insertNew, Option.or_assoc]
    by_cases h : key a = k <;> simp [h]

/-- Where all keys differ, nothing is left out of the index. -/
theorem values_firstBy {key : α → κ} {as : List α} (h : (as.map key).Nodup) :
    (firstBy key as).values = as := by
  suffices hm : ∀ m : OrderedMap κ α, (m.keys ++ as.map key).Nodup →
      (as.foldl (fun m a => m.insertNew (key a) a) m).values = m.values ++ as from hm {} h
  clear h
  induction as with
  | nil => simp
  | cons a as ih =>
    intro m hm
    have hk : m.contains (key a) = false := by
      rw [contains_eq_false_iff]
      intro hk
      exact (List.nodup_append.1 hm).2.2 _ hk _ List.mem_cons_self rfl
    have hnew : m.insertNew (key a) a = ⟨m.entries ++ [(key a, a)]⟩ := by simp [insertNew, hk]
    rw [List.foldl_cons, ih, hnew]
    · simp [values]
    · rw [hnew]
      simpa [keys] using hm

theorem getD_get?_groupBy (key : α → κ) (as : List α) (k : κ) :
    ((groupBy key as).get? k).getD [] = as.filter (key · = k) := by
  let add (m : OrderedMap κ (List α)) (a : α) := m.insert (key a) ((m.get? (key a)).getD [] ++ [a])
  suffices h : ∀ m, ((as.foldl add m).get? k).getD [] =
      (m.get? k).getD [] ++ as.filter (key · = k) from h {}
  induction as with
  | nil => simp
  | cons a as ih =>
    intro m
    rw [List.foldl_cons, ih]
    by_cases h : key a = k
    · subst h
      simp [add]
    · rw [get?_insert_of_ne _ (Ne.symm h), List.filter_cons_of_neg (by simpa using h)]

theorem prefix_values_insertNew (m : OrderedMap κ α) (k : κ) (a : α) :
    m.values <+: (m.insertNew k a).values := by
  unfold insertNew
  split
  · exact List.prefix_rfl
  · simp [values]

/-- What is added to a list comes after what is there in its index. -/
theorem prefix_values_firstBy (key : α → κ) (as bs : List α) :
    (firstBy key as).values <+: (firstBy key (as ++ bs)).values := by
  rw [firstBy, firstBy, List.foldl_append]
  generalize List.foldl _ _ as = m
  induction bs generalizing m with
  | nil => exact List.prefix_rfl
  | cons b bs ih => exact (prefix_values_insertNew m (key b) b).trans (ih _)

end OrderedMap

end NodeScript
