import Mathlib.Data.List.Forall2
import Mathlib.Logic.Relator
import NodeScript.OrderedMap

/-!
Maps that correspond entry by entry, where the keys of the one stand for those of the other. As long
as distinct keys stand for distinct keys, what is found, written or erased corresponds too.
-/

namespace NodeScript

open Relator

theorem rel_imp {α α' : Type} {R S : α → α' → Prop} {o : Option α} {o' : Option α'}
    (h : Option.Rel R o o') (hS : ∀ a a', o = some a → o' = some a' → R a a' → S a a') :
    Option.Rel S o o' := by
  cases h with
  | none => exact .none
  | some ha => exact .some (hS _ _ rfl rfl ha)

theorem rel_bind {α α' β β' : Type} {R : α → α' → Prop} {S : β → β' → Prop} {o : Option α}
    {o' : Option α'} {f : α → Option β} {f' : α' → Option β'} (h : Option.Rel R o o')
    (hf : ∀ a a', o = some a → o' = some a' → R a a' → Option.Rel S (f a) (f' a')) :
    Option.Rel S (o.bind f) (o'.bind f') := by
  cases h with
  | none => exact .none
  | some ha => exact hf _ _ rfl rfl ha

theorem rel_getD {α α' : Type} {R : α → α' → Prop} {o : Option α} {o' : Option α'} {a : α} {a' : α'}
    (h : Option.Rel R o o') (ha : R a a') : R (o.getD a) (o'.getD a') := by
  cases h with
  | none => exact ha
  | some h => exact h

theorem forall₂_mem {α α' : Type} {R : α → α' → Prop} {as : List α} {as' : List α'}
    (h : List.Forall₂ R as as') : List.Forall₂ (fun a a' => a ∈ as ∧ R a a') as as' :=
  (List.forall₂_and_left as as').mpr ⟨fun _ ha => ha, h⟩

/-- The first items that pass the tests correspond if the tests do. -/
theorem rel_find? {α α' : Type} {R : α → α' → Prop} {p : α → Bool} {p' : α' → Bool}
    {as : List α} {as' : List α'} (hp : ∀ a a', R a a' → p' a' = p a)
    (h : List.Forall₂ R as as') : Option.Rel R (as.find? p) (as'.find? p') := by
  induction h with
  | nil => exact .none
  | @cons a a' as as' ha _ ih =>
    rw [List.find?_cons, List.find?_cons, hp a a' ha]
    cases p a with
    | true => exact .some ha
    | false => exact ih

namespace OrderedMap

variable {κ κ' α α' : Type} {K : κ → κ' → Prop} {V : α → α' → Prop} {m : OrderedMap κ α}
  {m' : OrderedMap κ' α'} {k : κ} {k' : κ'} {a : α} {a' : α'}

def Rel (K : κ → κ' → Prop) (V : α → α' → Prop) (m : OrderedMap κ α) (m' : OrderedMap κ' α') :
    Prop :=
  List.Forall₂ (fun e e' => K e.1 e'.1 ∧ V e.2 e'.2) m.entries m'.entries

theorem rel_empty : Rel K V {} {} := .nil

theorem Rel.size_eq (h : Rel K V m m') : m'.size = m.size := h.length_eq.symm

theorem Rel.values (h : Rel K V m m') : List.Forall₂ V m.values m'.values := by
  rw [OrderedMap.values, OrderedMap.values, List.forall₂_map_left_iff, List.forall₂_map_right_iff]
  exact List.Forall₂.imp (fun _ _ he => he.2) h

variable [DecidableEq κ] [DecidableEq κ']

theorem Rel.get? (hK : BiUnique K) (h : Rel K V m m') (hk : K k k') :
    Option.Rel V (m.get? k) (m'.get? k') := by
  obtain ⟨es⟩ := m
  obtain ⟨es'⟩ := m'
  change Option.Rel V (find k es) (find k' es')
  change List.Forall₂ _ es es' at h
  induction h with
  | nil => exact .none
  | @cons e e' es es' he _ ih =>
    have hiff : e.1 = k ↔ e'.1 = k' := rel_eq hK he.1 hk
    by_cases hek : e.1 = k
    · rw [find, find, if_pos hek, if_pos (hiff.mp hek)]
      exact .some he.2
    · rw [find, find, if_neg hek, if_neg fun hek' => hek (hiff.mpr hek')]
      exact ih

theorem Rel.get?_eq {m : OrderedMap κ α} {m' : OrderedMap κ' α} (hK : BiUnique K)
    (h : Rel K Eq m m') (hk : K k k') : m'.get? k' = m.get? k := by
  have hget := h.get? hK hk
  generalize m.get? k = o at hget ⊢
  generalize m'.get? k' = o' at hget ⊢
  cases hget with
  | none => rfl
  | some ha => rw [ha]

theorem Rel.insert (hK : BiUnique K) (h : Rel K V m m') (hk : K k k') (ha : V a a') :
    Rel K V (m.insert k a) (m'.insert k' a') := by
  obtain ⟨es⟩ := m
  obtain ⟨es'⟩ := m'
  change List.Forall₂ _ (put k a es) (put k' a' es')
  change List.Forall₂ _ es es' at h
  induction h with
  | nil => exact .cons ⟨hk, ha⟩ .nil
  | @cons e e' es es' he hes ih =>
    have hiff : e.1 = k ↔ e'.1 = k' := rel_eq hK he.1 hk
    by_cases hek : e.1 = k
    · rw [put, put, if_pos hek, if_pos (hiff.mp hek)]
      exact .cons ⟨hk, ha⟩ hes
    · rw [put, put, if_neg hek, if_neg fun hek' => hek (hiff.mpr hek')]
      exact .cons he ih

theorem Rel.insertNew (hK : BiUnique K) (h : Rel K V m m') (hk : K k k') (ha : V a a') :
    Rel K V (m.insertNew k a) (m'.insertNew k' a') := by
  have hget := h.get? hK hk
  unfold OrderedMap.insertNew contains
  generalize m.get? k = o at hget ⊢
  generalize m'.get? k' = o' at hget ⊢
  cases hget with
  | none => exact List.rel_append h (.cons ⟨hk, ha⟩ .nil)
  | some _ => exact h

theorem Rel.erase (hK : BiUnique K) (h : Rel K V m m') (hk : K k k') :
    Rel K V (m.erase k) (m'.erase k') := by
  refine List.rel_filter ?_ h
  intro e e' he
  have hiff : e.1 = k ↔ e'.1 = k' := rel_eq hK he.1 hk
  simpa using not_congr hiff

variable {key : α → κ} {key' : α' → κ'} {as : List α} {as' : List α'}

theorem rel_firstBy (hK : BiUnique K) (hkey : ∀ a a', V a a' → K (key a) (key' a'))
    (h : List.Forall₂ V as as') : Rel K V (firstBy key as) (firstBy key' as') :=
  List.rel_foldl (fun _ _ hm a a' ha => hm.insertNew hK (hkey a a' ha) ha) rel_empty h

theorem rel_groupBy (hK : BiUnique K) (hkey : ∀ a a', V a a' → K (key a) (key' a'))
    (h : List.Forall₂ V as as') :
    Rel K (List.Forall₂ V) (groupBy key as) (groupBy key' as') := by
  refine List.rel_foldl (fun m m' hm a a' ha => ?_) rel_empty h
  have hk := hkey a a' ha
  refine hm.insert hK hk (List.rel_append ?_ (.cons ha .nil))
  have hget := hm.get? hK hk
  generalize m.get? (key a) = o at hget ⊢
  generalize m'.get? (key' a') = o' at hget ⊢
  cases hget with
  | none => exact .nil
  | some h => exact h

end OrderedMap

end NodeScript
