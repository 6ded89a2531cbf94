import NodeScript.Proofs.Wiring

namespace NodeScript

namespace OrderedMap

variable {κ α : Type} [DecidableEq κ]

theorem keys_insertNew (m : OrderedMap κ α) (k : κ) (a : α) :
    (m.insertNew k a).keys = if k ∈ m.keys then m.keys else m.keys ++ [k] := by
  unfold insertNew
  by_cases hk : k ∈ m.keys
  · have hcontains : m.contains k = true := by
      rw [← Bool.not_eq_false, contains_eq_false_iff]
      exact fun h => h hk
    rw [if_pos hcontains, if_pos hk]
  · rw [if_neg (Bool.eq_false_iff.mp (contains_eq_false_iff.mpr hk)), if_neg hk]
    simp [keys]

theorem firstBy_concat (key : α → κ) (as : List α) (a : α) :
    firstBy key (as ++ [a]) = (firstBy key as).insertNew (key a) a := by
  rw [firstBy, List.foldl_append]
  rfl

theorem eraseDups_concat (ks : List κ) (k : κ) :
    (ks ++ [k]).eraseDups = if k ∈ ks.eraseDups then ks.eraseDups else ks.eraseDups ++ [k] := by
  rw [List.eraseDups_append]
  by_cases hk : k ∈ ks <;> simp [List.removeAll, hk, List.eraseDups_cons, List.mem_eraseDups]

theorem keys_firstBy (key : α → κ) (as : List α) :
    (firstBy key as).keys = (as.map key).eraseDups := by
  induction as using List.reverseRecOn with
  | nil => rfl
  | append_singleton as a ih =>
    rw [firstBy_concat, keys_insertNew, ih, List.map_append, List.map_singleton, eraseDups_concat]

theorem values_eq_filterMap {m : OrderedMap κ α} (h : m.keys.Nodup) :
    m.values = m.keys.filterMap m.get? := by
  obtain ⟨es⟩ := m
  change es.map Prod.snd = (es.map Prod.fst).filterMap (find · es)
  change (es.map Prod.fst).Nodup at h
  induction es with
  | nil => rfl
  | cons e es ih =>
    rw [List.map_cons, List.nodup_cons] at h
    have hothers : (es.map Prod.fst).filterMap (find · (e :: es)) =
        (es.map Prod.fst).filterMap (find · es) := by
      refine List.filterMap_congr fun k hk => ?_
      rw [find, if_neg]
      rintro rfl
      exact h.1 hk
    rw [List.map_cons, List.map_cons, List.filterMap_cons, hothers, ← ih h.2, find, if_pos rfl]

end OrderedMap

/-- The groups of a list by a key, taken together, are the list in another order. -/
theorem perm_groups {κ α : Type} [DecidableEq κ] [BEq κ] [LawfulBEq κ] (key : α → κ)
    (as : List α) :
    ((as.map key).eraseDups.flatMap fun k => as.filter (key · = k)).Perm as := by
  -- The group of the first item is split off, and what is left is shorter.
  induction hlength : as.length using Nat.strongRecOn generalizing as with
  | _ n ih =>
    subst hlength
    cases as with
    | nil => exact .refl _
    | cons a as =>
      let others := as.filter (key · ≠ key a)
      have hkeys : ((a :: as).map key).eraseDups = key a :: (others.map key).eraseDups := by
        rw [List.map_cons, List.eraseDups_cons, List.filter_map]
        have hsame : (fun k => !k == key a) ∘ key = fun b => decide (key b ≠ key a) := by
          funext b
          simp [Bool.beq_eq_decide_eq]
        rw [hsame]
      have hgroups : (others.map key).eraseDups.flatMap (fun k => (a :: as).filter (key · = k)) =
          (others.map key).eraseDups.flatMap fun k => others.filter (key · = k) := by
        refine List.flatMap_congr fun k hk => ?_
        have hne : k ≠ key a := by
          obtain ⟨b, hb, rfl⟩ := List.mem_map.mp (List.mem_eraseDups.mp hk)
          exact of_decide_eq_true (List.mem_filter.mp hb).2
        rw [List.filter_cons_of_neg (by simpa using Ne.symm hne), List.filter_filter]
        refine List.filter_congr fun b _ => ?_
        by_cases hb : key b = k <;> simp [hb, hne]
      have hothers := ih others.length
        (Nat.lt_succ_of_le (List.length_filter_le _ as)) others rfl
      rw [hkeys, List.flatMap_cons, hgroups]
      have hsplit := List.filter_append_perm (fun b => decide (key b = key a)) (a :: as)
      have hrest : (a :: as).filter (fun b => !decide (key b = key a)) = others := by
        rw [List.filter_cons_of_neg (by simp)]
        refine List.filter_congr fun b _ => ?_
        simp
      rw [hrest] at hsplit
      exact (hothers.append_left _).trans hsplit

namespace Graph

variable (nodes : List Node) (wires : List Wire)

theorem outgoingFrom_ofLists (nodeId pinId : Text) :
    (ofLists nodes wires).outgoingFrom nodeId pinId = wires.filter (·.source = (nodeId, pinId)) :=
  OrderedMap.getD_get?_groupBy Wire.source wires (nodeId, pinId)

theorem nodes_ofLists_eq_filterMap :
    (ofLists nodes wires).nodes =
      (nodes.map Node.id).eraseDups.filterMap fun id => nodes.find? (·.id = id) := by
  have hvalues := OrderedMap.values_eq_filterMap (OrderedMap.nodup_keys_firstBy Node.id nodes)
  rw [OrderedMap.keys_firstBy] at hvalues
  refine hvalues.trans (List.filterMap_congr fun id _ => ?_)
  exact OrderedMap.get?_firstBy Node.id nodes id

/-- Each wire is counted among the wires out of its own source, and nowhere else. -/
theorem count_outgoingFrom_ofLists (w : Wire) (nodeId pinId : Text) :
    ((ofLists nodes wires).outgoingFrom nodeId pinId).count w =
      if w.source = (nodeId, pinId) then wires.count w else 0 := by
  rw [outgoingFrom_ofLists]
  by_cases hw : w.source = (nodeId, pinId)
  · rw [if_pos hw, List.count_filter (by simpa using hw)]
  · rw [if_neg hw, List.count_eq_zero]
    exact fun h => hw (of_decide_eq_true (List.mem_filter.mp h).2)

/-- What is looked up in a graph of any lists is what a scan of these lists finds: the first node
with an identifier, the nodes in the order in which their identifiers occur first, the first wire
into an input, and all wires out of an output in their order. No wire is lost or doubled. -/
theorem ofLists_eq_scans :
    (∀ id, (ofLists nodes wires).node? id = nodes.find? (·.id = id)) ∧
    (ofLists nodes wires).nodes =
      (nodes.map Node.id).eraseDups.filterMap (fun id => nodes.find? (·.id = id)) ∧
    (ofLists nodes wires).nodes.map Node.id = (nodes.map Node.id).eraseDups ∧
    ((ofLists nodes wires).nodes.map Node.id).Nodup ∧
    (∀ k, (ofLists nodes wires).nodesOfKind k =
      (ofLists nodes wires).nodes.filter (·.kind = k)) ∧
    (∀ nodeId pinId, (ofLists nodes wires).incoming? nodeId pinId =
      wires.find? (·.target = (nodeId, pinId))) ∧
    (∀ nodeId pinId, (ofLists nodes wires).outgoingFrom nodeId pinId =
      wires.filter (·.source = (nodeId, pinId))) ∧
    (∀ w nodeId pinId, ((ofLists nodes wires).outgoingFrom nodeId pinId).count w =
      if w.source = (nodeId, pinId) then wires.count w else 0) ∧
    ((wires.map Wire.source).eraseDups.flatMap fun source =>
      (ofLists nodes wires).outgoingFrom source.1 source.2).Perm wires := by
  have hkeys := (ofLists nodes wires).nodeIndex_keyedBy.keys_eq
  refine ⟨node?_ofLists nodes wires, nodes_ofLists_eq_filterMap nodes wires, ?_, ?_, fun _ => rfl,
    incoming?_ofLists nodes wires, outgoingFrom_ofLists nodes wires,
    count_outgoingFrom_ofLists nodes wires, ?_⟩
  · exact hkeys.symm.trans (OrderedMap.keys_firstBy Node.id nodes)
  · exact hkeys ▸ (ofLists nodes wires).nodeIndex_nodup
  · simp only [outgoingFrom_ofLists]
    exact perm_groups Wire.source wires

end Graph

end NodeScript
