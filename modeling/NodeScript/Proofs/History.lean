import NodeScript.Proofs.Freshness

/-!
The variables as the outcome of their history. What is listed, under which value and in which order
depends on all changes since the beginning: a name is listed if the last change of it is a set, and
its place is that of the first set since it was last cleared.
-/

namespace NodeScript

namespace OrderedMap

variable {κ α : Type} [DecidableEq κ] {m : OrderedMap κ α} {k : κ}

theorem keys_erase (m : OrderedMap κ α) (k : κ) :
    (m.erase k).keys = m.keys.filter (fun l => decide (l ≠ k)) := by
  rw [keys, erase, keys, List.filter_map]
  rfl

theorem mem_entries_iff (h : m.keys.Nodup) {a : α} : (k, a) ∈ m.entries ↔ m.get? k = some a := by
  refine ⟨fun he => ?_, mem_of_get?⟩
  cases hk : m.get? k with
  | none => exact absurd (List.mem_map_of_mem (f := Prod.fst) he) (find_eq_none_iff.mp hk)
  | some b =>
    have hpair := List.inj_on_of_nodup_map h he (mem_of_get? hk) rfl
    rw [(Prod.mk.inj hpair).2]

theorem contains_iff : m.contains k = true ↔ k ∈ m.keys := by
  rw [← not_iff_not, Bool.not_eq_true, contains_eq_false_iff]

end OrderedMap

namespace Variables

inductive Change
  | set (name : Text) (v : Value)
  | clear (name : Text)

def Change.name : Change → Text
  | set name _ => name
  | clear name => name

def change (vs : Variables) : Change → Variables
  | .set name v => vs.insert name v
  | .clear name => (vs.clear name).2

def changeAll (vs : Variables) (cs : List Change) : Variables := cs.foldl change vs

def after (initial : List (Text × Value)) (cs : List Change) : Variables :=
  changeAll (.ofList initial) cs

/-- All changes since there were no variables at all: the first ones set what is there in the
beginning. -/
def history (initial : List (Text × Value)) (cs : List Change) : List Change :=
  initial.map (fun e => .set e.1 e.2) ++ cs

theorem changeAll_append (vs : Variables) (cs ds : List Change) :
    vs.changeAll (cs ++ ds) = (vs.changeAll cs).changeAll ds := List.foldl_append

theorem after_append (initial : List (Text × Value)) (cs ds : List Change) :
    after initial (cs ++ ds) = (after initial cs).changeAll ds := changeAll_append _ cs ds

theorem changeAll_history (initial : List (Text × Value)) (cs : List Change) :
    changeAll {} (history initial cs) = after initial cs := by
  have hfirst : changeAll {} (initial.map fun e => .set e.1 e.2) = .ofList initial := by
    rw [changeAll, List.foldl_map]
    rfl
  rw [history, changeAll_append, hfirst, after]

/-- The last change of the name sets it to the value. -/
def Leaves (h : List Change) (name : Text) (v : Value) : Prop :=
  ∃ before after, h = before ++ .set name v :: after ∧ ∀ c ∈ after, c.name ≠ name

/-- Change number `t` is the first that sets the name since it was last cleared, if it ever was. -/
structure SetSince (h : List Change) (name : Text) (t : Nat) : Prop where
  set : ∃ v, h[t]? = some (.set name v)
  kept : ∀ u, t < u → h[u]? ≠ some (.clear name)
  first : ∀ s < t, (∃ v, h[s]? = some (.set name v)) →
    ∃ u, s < u ∧ u < t ∧ h[u]? = some (.clear name)

/-- The variables are those that the history leaves, each once, in the order of the changes that
brought them in. -/
structure Reflects (h : List Change) (vs : Variables) : Prop where
  nodup : vs.keys.Nodup
  mem_iff : ∀ name v, (name, v) ∈ vs.entries ↔ Leaves h name v
  order : ∃ dated : List (Text × Nat), dated.map Prod.fst = vs.keys ∧
    dated.Pairwise (·.2 < ·.2) ∧ ∀ d ∈ dated, SetSince h d.1 d.2

variable {h : List Change} {vs : Variables} {c : Change} {name : Text} {v : Value} {t : Nat}

theorem leaves_concat :
    Leaves (h ++ [c]) name v ↔ c = .set name v ∨ c.name ≠ name ∧ Leaves h name v := by
  constructor
  · rintro ⟨before, after, heq, hafter⟩
    induction after using List.reverseRecOn with
    | nil =>
      obtain ⟨-, hc⟩ := List.append_inj' heq rfl
      exact .inl (List.singleton_inj.mp hc)
    | append_singleton after d _ =>
      rw [← List.cons_append, ← List.append_assoc] at heq
      obtain ⟨hh, hc⟩ := List.append_inj' heq rfl
      rw [List.singleton_inj.mp hc]
      refine .inr ⟨hafter d (by simp), before, after, hh, fun c hc => hafter c ?_⟩
      exact List.mem_append_left _ hc
  · rintro (rfl | ⟨hc, before, after, rfl, hafter⟩)
    · exact ⟨h, [], rfl, by simp⟩
    · refine ⟨before, after ++ [c], by simp, fun d hd => ?_⟩
      obtain hd | hd := List.mem_append.mp hd
      · exact hafter d hd
      · rwa [List.mem_singleton.mp hd]

theorem SetSince.lt_length (ht : SetSince h name t) : t < h.length := by
  obtain ⟨v, hv⟩ := ht.set
  exact (List.getElem?_eq_some_iff.mp hv).1

theorem SetSince.concat (ht : SetSince h name t) (hc : c ≠ .clear name) :
    SetSince (h ++ [c]) name t := by
  have hlt := ht.lt_length
  have hbefore {u : Nat} (hu : u < h.length) : (h ++ [c])[u]? = h[u]? :=
    List.getElem?_append_left hu
  constructor
  · rw [hbefore hlt]
    exact ht.set
  · intro u hu
    rcases Nat.lt_trichotomy u h.length with hul | rfl | hul
    · rw [hbefore hul]
      exact ht.kept u hu
    · simpa using hc
    · rw [List.getElem?_eq_none (by simp; omega)]
      exact (Option.some_ne_none _).symm
  · intro s hs hset
    rw [hbefore (by omega)] at hset
    obtain ⟨u, hsu, hut, hu⟩ := ht.first s hs hset
    exact ⟨u, hsu, hut, by rw [hbefore (by omega), hu]⟩

theorem cleared_or_leaves {s : Nat} (hs : h[s]? = some (.set name v)) :
    (∃ u, s < u ∧ h[u]? = some (.clear name)) ∨ ∃ w, Leaves h name w := by
  induction h using List.reverseRecOn with
  | nil => simp at hs
  | append_singleton h c ih =>
    obtain hlt | hge := Nat.lt_or_ge s h.length
    · rw [List.getElem?_append_left hlt] at hs
      by_cases hc : c.name = name
      · subst hc
        cases c with
        | set name w => exact .inr ⟨w, leaves_concat.mpr (.inl rfl)⟩
        | clear name => exact .inl ⟨h.length, hlt, by simp [Change.name]⟩
      · rcases ih hs with ⟨u, hsu, hu⟩ | ⟨w, hw⟩
        · have hlt := (List.getElem?_eq_some_iff.mp hu).1
          exact .inl ⟨u, hsu, by rw [List.getElem?_append_left hlt, hu]⟩
        · exact .inr ⟨w, leaves_concat.mpr (.inr ⟨hc, hw⟩)⟩
    · obtain rfl : s = h.length := by
        have := (List.getElem?_eq_some_iff.mp hs).1
        simp at this
        omega
      refine .inr ⟨v, leaves_concat.mpr (.inl ?_)⟩
      simpa using hs

namespace Reflects

theorem empty : Reflects [] {} where
  nodup := List.nodup_nil
  mem_iff name v := by
    refine ⟨nofun, ?_⟩
    rintro ⟨before, after, heq, -⟩
    cases before <;> cases heq
  order := ⟨[], rfl, .nil, nofun⟩

theorem mem_keys_iff (hr : Reflects h vs) : name ∈ vs.keys ↔ ∃ v, Leaves h name v := by
  constructor
  · intro hname
    obtain ⟨e, he, rfl⟩ := List.mem_map.mp hname
    exact ⟨e.2, (hr.mem_iff _ _).mp he⟩
  · rintro ⟨v, hv⟩
    exact List.mem_map.mpr ⟨_, (hr.mem_iff _ _).mpr hv, rfl⟩

theorem setSince_new (hr : Reflects h vs) (hname : name ∉ vs.keys) (v : Value) :
    SetSince (h ++ [.set name v]) name h.length := by
  constructor
  · exact ⟨v, by simp⟩
  · intro u hu
    rw [List.getElem?_eq_none (by simp; omega)]
    exact (Option.some_ne_none _).symm
  · rintro s hs ⟨w, hw⟩
    rw [List.getElem?_append_left hs] at hw
    rcases cleared_or_leaves hw with ⟨u, hsu, hu⟩ | hleaves
    · have hlt := (List.getElem?_eq_some_iff.mp hu).1
      exact ⟨u, hsu, hlt, by rw [List.getElem?_append_left hlt, hu]⟩
    · exact absurd (hr.mem_keys_iff.mpr hleaves) hname

theorem mem_iff_get? (hr : Reflects h vs) : vs.get? name = some v ↔ Leaves h name v := by
  rw [← OrderedMap.mem_entries_iff hr.nodup, hr.mem_iff]

theorem set (hr : Reflects h vs) (name : Text) (v : Value) :
    Reflects (h ++ [.set name v]) (vs.insert name v) := by
  obtain ⟨dated, hkeys, hpairwise, hsince⟩ := hr.order
  have hold : ∀ d ∈ dated, SetSince (h ++ [.set name v]) d.1 d.2 :=
    fun d hd => (hsince d hd).concat nofun
  have hnodup : (vs.insert name v).keys.Nodup := by
    rw [OrderedMap.keys_insert]
    split
    · exact hr.nodup
    · rename_i hname
      rw [← List.concat_eq_append]
      exact hr.nodup.concat hname
  refine ⟨hnodup, fun other w => ?_, ?_⟩
  · rw [OrderedMap.mem_entries_iff hnodup, leaves_concat]
    by_cases ho : other = name
    · subst ho
      rw [OrderedMap.get?_insert_self]
      simp [Change.name]
    · rw [OrderedMap.get?_insert_of_ne vs ho, hr.mem_iff_get?]
      simp [Change.name, Ne.symm ho]
  · by_cases hname : name ∈ vs.keys
    · refine ⟨dated, ?_, hpairwise, hold⟩
      rw [OrderedMap.keys_insert, if_pos hname, hkeys]
    · refine ⟨dated ++ [(name, h.length)], ?_, ?_, ?_⟩
      · rw [OrderedMap.keys_insert, if_neg hname, List.map_append, hkeys]
        rfl
      · refine List.pairwise_append.mpr ⟨hpairwise, List.pairwise_singleton _ _, ?_⟩
        intro d hd e he
        rw [List.mem_singleton.mp he]
        exact (hsince d hd).lt_length
      · intro d hd
        obtain hd | hd := List.mem_append.mp hd
        · exact hold d hd
        · rw [List.mem_singleton.mp hd]
          exact hr.setSince_new hname v

theorem clear (hr : Reflects h vs) (name : Text) :
    Reflects (h ++ [.clear name]) (vs.clear name).2 := by
  obtain ⟨dated, hkeys, hpairwise, hsince⟩ := hr.order
  have hnodup : (vs.erase name).keys.Nodup := by
    rw [OrderedMap.keys_erase]
    exact hr.nodup.filter _
  refine ⟨hnodup, fun other w => ?_, dated.filter (·.1 ≠ name), ?_, hpairwise.filter _, ?_⟩
  · rw [Variables.clear, OrderedMap.mem_entries_iff hnodup, leaves_concat]
    by_cases ho : other = name
    · subst ho
      rw [OrderedMap.get?_erase_self]
      simp [Change.name]
    · rw [OrderedMap.get?_erase_of_ne vs ho, hr.mem_iff_get?]
      simp [Change.name, Ne.symm ho]
  · rw [Variables.clear, OrderedMap.keys_erase, ← hkeys, List.filter_map]
    rfl
  · intro d hd
    obtain ⟨hd, hne⟩ := List.mem_filter.mp hd
    refine (hsince d hd).concat fun hc => ?_
    exact of_decide_eq_true hne (Change.clear.inj hc).symm

theorem change (hr : Reflects h vs) (c : Change) : Reflects (h ++ [c]) (vs.change c) := by
  cases c with
  | set name v => exact hr.set name v
  | clear name => exact hr.clear name

end Reflects

theorem reflects_changeAll (h : List Change) : Reflects h (changeAll {} h) := by
  induction h using List.reverseRecOn with
  | nil => exact .empty
  | append_singleton h c ih =>
    rw [changeAll_append]
    exact ih.change c

theorem keys_change_set (hname : name ∈ vs.keys) (v : Value) :
    (vs.change (.set name v)).keys = vs.keys := by
  rw [change, OrderedMap.keys_insert, if_pos hname]

theorem entries_clear_set (vs : Variables) (name : Text) (v : Value) :
    (vs.changeAll [.clear name, .set name v]).entries =
      vs.entries.filter (fun e => decide (e.1 ≠ name)) ++ [(name, v)] := by
  have hnew : name ∉ (vs.erase name).keys := by
    rw [OrderedMap.keys_erase]
    simp
  exact congrArg OrderedMap.entries (OrderedMap.insert_of_not_mem hnew v)

theorem lines_eq_mapM (es : List (Text × Value)) : lines es = es.mapM fun e => line e.1 e.2 := by
  induction es with
  | nil => rfl
  | cons e es ih => rw [List.mapM_cons, ← ih, lines]

end Variables

namespace Run

open Variables

variable {setting : Setting} {node : Node} {s t : State} {n : Nat}

/-- What the visit of a node does to the variables, if it does anything to them. -/
def change? (setting : Setting) (node : Node) (s : State) : Option Change :=
  match node.kind with
  | .setVariable =>
    match variableName node s with
    | (.ok (some name), t) => (read setting node "Value" t).1.toOption.map (.set name)
    | _ => none
  | .clearVariable =>
    match variableName node s with
    | (.ok (some name), _) => some (.clear name)
    | _ => none
  | _ => none

def changes (setting : Setting) (s : State) (n : Nat) : List Change :=
  (List.range n).filterMap fun i =>
    (visited? setting s i).bind fun node => change? setting node (entering setting s i)

theorem readStable_bindings (setting : Setting) :
    ReadStable setting (fun s t => t.bindings = s.bindings) where
  refl _ := rfl
  trans hst htu := htu.trans hst
  read _ _ _ := rfl
  trace _ _ _ := rfl

theorem bindings_variableName (setting : Setting) (node : Node) (s : State) :
    (variableName node s).2.bindings = s.bindings :=
  ((readStable_bindings setting).ensures_variableName node s).1

theorem bindings_afterLoopStep (setting : Setting) (node : Node) (outcome : LoopStep) (s : State) :
    (afterLoopStep setting node outcome s).2.bindings = s.bindings := by
  rcases afterLoopStep_cases setting node outcome s with h | ⟨trace, h⟩ <;> rw [h]

theorem bindings_proceed (setting : Setting) (node : Node) (state : ForState) (s : State) :
    (proceed setting node state s).2.bindings = s.bindings := by
  unfold proceed
  cases h : state.advance setting.config.maxLoopIterations with
  | error fault => rfl
  | ok x => exact bindings_afterLoopStep setting node x.1 _

theorem bindings_visitForLoop (setting : Setting) (node : Node) (s : State) :
    (visitForLoop setting node s).2.bindings = s.bindings := by
  rw [visitForLoop_apply]
  split
  · exact bindings_proceed setting node _ s
  · have hbegin := ((readStable_bindings setting).ensures_beginLoop node s).1
    generalize beginLoop setting node s = x at hbegin ⊢
    obtain ⟨fault | _ | state, t⟩ := x
    · exact hbegin
    · exact hbegin
    · exact (bindings_proceed setting node state _).trans hbegin

theorem bindings_visitWhileLoop (setting : Setting) (node : Node) (s : State) :
    (visitWhileLoop setting node s).2.bindings = s.bindings := by
  rw [visitWhileLoop_apply]
  have hread := ((readStable_bindings setting).ensures_readCondition node
    { s with loops := s.loops.setWhile node.id (s.loops.iterations node.id) }).1
  generalize readCondition setting node _ = x at hread ⊢
  obtain ⟨fault | condition, t⟩ := x
  · exact hread
  · dsimp only
    split
    · exact (bindings_afterLoopStep setting node _ _).trans hread
    · exact hread

theorem bindings_behaviour_of_ne (setting : Setting) (hset : node.kind ≠ .setVariable)
    (hclear : node.kind ≠ .clearVariable) (s : State) :
    (behaviour setting node s).2.bindings = s.bindings := by
  have h := readStable_bindings setting
  suffices hkept : Ensures (fun s t : State => t.bindings = s.bindings) (fun _ => True)
      (behaviour setting node) from (hkept s).1
  unfold behaviour
  dsimp only
  split
  · exact h.ensures_pure trivial
  · exact h.ensures_pure trivial
  · refine h.ensures_bind (h.ensures_read node _) fun v _ => ?_
    refine h.ensures_bind (h.ensures_lift _) fun text _ => ?_
    exact h.ensures_bind (h.ensures_trace rfl) fun _ _ => h.ensures_pure trivial
  · exact absurd ‹_› hset
  · exact absurd ‹_› hclear
  · exact h.ensures_bind (h.ensures_readCondition node) fun _ _ => h.ensures_pure trivial
  · exact fun s => ⟨bindings_visitForLoop setting node s, fun _ _ => trivial⟩
  · exact fun s => ⟨bindings_visitWhileLoop setting node s, fun _ _ => trivial⟩
  · exact h.ensures_pure trivial

/-- A behaviour changes the variables once at most: `change?` tells how. -/
theorem bindings_behaviour (setting : Setting) (node : Node) (s : State) :
    (behaviour setting node s).2.bindings =
      s.bindings.changeAll (change? setting node s).toList := by
  have hname := bindings_variableName setting node s
  by_cases hset : node.kind = .setVariable
  · simp only [behaviour, change?, hset]
    rw [bind_apply]
    generalize variableName node s = x at hname ⊢
    obtain ⟨fault | _ | name, t⟩ := x
    · exact hname
    · exact hname
    · dsimp only
      have hread : (read setting node "Value" t).2.bindings = t.bindings := rfl
      rw [bind_apply]
      generalize read setting node "Value" t = y at hread ⊢
      obtain ⟨fault | v, u⟩ := y
      · exact hread.trans hname
      · exact congrArg (OrderedMap.insert · name v) (hread.trans hname)
  · by_cases hclear : node.kind = .clearVariable
    · simp only [behaviour, change?, hclear]
      rw [bind_apply]
      generalize variableName node s = x at hname ⊢
      obtain ⟨fault | _ | name, t⟩ := x
      · exact hname
      · exact hname
      · exact congrArg (OrderedMap.erase · name) hname
    · have hnone : change? setting node s = none := by
        unfold change?
        split
        · exact absurd ‹_› hset
        · exact absurd ‹_› hclear
        · rfl
      rw [bindings_behaviour_of_ne setting hset hclear, hnone]
      rfl

theorem changes_succ (setting : Setting) (s : State) (n : Nat) :
    changes setting s (n + 1) = changes setting s n ++ ((visited? setting s n).bind fun node =>
      change? setting node (entering setting s n)).toList := by
  rw [changes, List.range_succ, List.filterMap_append, List.filterMap_cons, List.filterMap_nil]
  cases (visited? setting s n).bind fun node => change? setting node (entering setting s n) <;> rfl

theorem bindings_drain (setting : Setting) (s : State) (n : Nat) :
    (drain setting n s).bindings = s.bindings.changeAll (changes setting s n) := by
  induction n with
  | zero => rfl
  | succ n ih =>
    rw [changes_succ, changeAll_append, ← ih]
    cases hv : visited? setting s n with
    | none =>
      rw [drain_succ_of_visited?_eq_none hv]
      rfl
    | some node =>
      rw [drain_succ_of_visited? hv, (alike_visit setting node _).bindings, bindings_behaviour]
      rfl

end Run

namespace Variables

/-- Whatever is there in the beginning and whatever is set and cleared after that, the variables
reflect the history. Clearing tells whether a name was listed, a name that is set again keeps its
place, and one that is cleared and set goes to the end. The listing has a line for each variable in
this order. In a run, the history is that of the visits that set or clear a variable. -/
theorem after_reflects (initial : List (Text × Value)) (cs : List Change) :
    Reflects (history initial cs) (after initial cs) ∧
    (∀ name, ((after initial cs).clear name).1 = true ↔ name ∈ (after initial cs).keys) ∧
    (∀ name v, name ∈ (after initial cs).keys →
      (after initial (cs ++ [.set name v])).keys = (after initial cs).keys) ∧
    (∀ name v, (after initial (cs ++ [.clear name, .set name v])).entries =
      (after initial cs).entries.filter (fun e => decide (e.1 ≠ name)) ++ [(name, v)]) ∧
    (after initial cs).listing =
      (if (after initial cs).entries.isEmpty then .ok [noneLine]
      else (after initial cs).entries.mapM fun e => line e.1 e.2) ∧
    ∀ (setting : Run.Setting) (s : Run.State) (n : Nat), s.bindings = .ofList initial →
      (Run.drain setting n s).bindings = after initial (Run.changes setting s n) := by
  refine ⟨?_, fun name => OrderedMap.contains_iff, fun name v hname => ?_, fun name v => ?_, ?_,
    fun setting s n hs => ?_⟩
  · rw [← changeAll_history]
    exact reflects_changeAll _
  · rw [after_append]
    exact keys_change_set hname v
  · rw [after_append]
    exact entries_clear_set _ name v
  · rw [listing, lines_eq_mapM]
  · rw [Run.bindings_drain, hs, after]

namespace Reordered

def initial : List (Text × Value) := [("a", .int 1), ("b", .int 2)]

def changes : List Change :=
  [.clear "a", .set "c" (.int 3), .set "b" (.int 4), .set "a" (.int 5)]

def reordered : Variables := ⟨[("b", .int 4), ("c", .int 3), ("a", .int 5)]⟩

def clearing : Node :=
  { id := "clearing", kind := .clearVariable, properties := ⟨[("name", .text "a")]⟩ }

def setting : Run.Setting := { graph := .ofLists [clearing] [], config := {} }

def state : Run.State :=
  { bindings := .ofList initial, evaluation := { generator := .ofSeed 0 }, queue := [clearing] }

theorem after_reflects_reordered :
    after initial changes = reordered ∧ Reflects (history initial changes) reordered ∧
    ("b" : Text) ∈ reordered.keys ∧
    (after initial (changes ++ [.set "b" .null])).keys = reordered.keys ∧
    state.bindings = .ofList initial ∧
    (Run.drain setting 1 state).bindings = after initial [.clear "a"] := by
  obtain ⟨hreflects, -, hset, -, -, hrun⟩ := after_reflects initial changes
  have hb : ("b" : Text) ∈ reordered.keys := List.mem_cons_self
  exact ⟨rfl, hreflects, hb, hset "b" .null hb, rfl, hrun setting state 1 rfl⟩

end Reordered

end Variables

end NodeScript
