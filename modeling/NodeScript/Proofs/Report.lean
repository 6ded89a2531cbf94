import NodeScript.CommandLine
import NodeScript.Proofs.Outcomes
import NodeScript.Proofs.Texts
import NodeScript.Proofs.Truncation

/-!
What a run writes. Each visit adds its warnings and at most one line more, in the order of the
visits; then comes the report of what is still queued, and the listing of the variables. So the one
line of a graph without an entry node cannot come from a run.
-/

namespace NodeScript.Run

section

variable {setting : Setting} {node entry : Node} {s t : State} {shown : Text}

/-- What the visit of `node` that begins in `s` writes after its warnings: that it fails, that its
loop has come up to the limit, or the text that it prints. -/
def remark? (setting : Setting) (node : Node) (s : State) : Option Entry :=
  match (behaviour setting node s).1 with
  | .error fault => some (.error (.failed node fault))
  | .ok _ =>
    if loopOutcome? setting node s = some .aborted then
      let limit := setting.config.maxLoopIterations
      limit.plain.toOption.map fun shown => .error (.loopLimit node limit shown)
    else if node.kind = .printString then
      (read setting node "In String" s).1.toOption.bind fun v => v.display.toOption.map .print
    else none

theorem trace_visit (setting : Setting) (node : Node) (s : State) :
    (visit setting node s).trace =
      match behaviour setting node s with
      | (.ok _, t) => t.trace
      | (.error fault, t) => t.trace.report (.failed node fault) := by
  unfold visit
  rw [ExceptT.run]
  obtain ⟨r, t⟩ := behaviour setting node s
  cases r <;> rfl

theorem entries_visit (setting : Setting) (node : Node) (s : State) :
    ∃ ws : List Entry, (∀ e ∈ ws, e.isWarning = true) ∧
      (visit setting node s).trace.entries =
        s.trace.entries ++ ws ++ (remark? setting node s).toList := by
  have he := effect_behaviour setting node s
  rw [trace_visit, remark?]
  generalize behaviour setting node s = x at he ⊢
  cases he with
  | failed h ho =>
    obtain ⟨ws, ht, hws⟩ := h.warned
    exact ⟨ws, hws, by simp [Trace.report, Trace.append, ht]⟩
  | passed hk h ho =>
    obtain ⟨ws, ht, hws⟩ := h
    exact ⟨ws, hws, by simp [ht, ho, hk]⟩
  | printed hk hr hv h =>
    have hw := ((warnStable_onlyWarns setting).read s node "In String").warned
    rw [hr] at hw
    obtain ⟨ws, ht, hws⟩ := hw
    refine ⟨ws, hws, ?_⟩
    simp [h, Trace.print, Trace.append, ht, loopOutcome?_of_print hk, hk, hr, hv, Except.toOption]
  | aborted ho hs hu h =>
    obtain ⟨ws, ht, hws⟩ := hu
    exact ⟨ws, hws, by simp [h, Trace.report, Trace.append, ht, ho, hs, Except.toOption]⟩

/-- The remark of a visit is an error if the visit fails or its loop has come up to a limit that can
be shown; it is not both. -/
theorem countP_remark? (hl : setting.config.maxLoopIterations.plain = .ok shown) :
    (remark? setting node s).toList.countP Entry.isError =
      (!(behaviour setting node s).1.isOk).toNat +
        (loopOutcome? setting node s == some .aborted).toNat := by
  have he := effect_behaviour setting node s
  rw [remark?]
  generalize behaviour setting node s = x at he ⊢
  cases he with
  | failed h ho => simp [ho shown hl, Entry.isError, Except.isOk, Except.toBool]
  | passed hk h ho => simp [hk, ho, beq_eq_false_iff_ne.mpr ho, Except.isOk, Except.toBool]
  | printed hk hr hv h =>
    simp [loopOutcome?_of_print hk, hk, hr, hv, Entry.isError, Except.isOk, Except.toBool,
      Except.toOption]
  | aborted ho hs hu h =>
    simp [ho, hs, Entry.isError, Except.isOk, Except.toBool, Except.toOption]

def writtenAt (setting : Setting) (s : State) (n : Nat) : List Entry :=
  (drain setting (n + 1) s).trace.entries.drop (drain setting n s).trace.size

def remarkAt? (setting : Setting) (s : State) (n : Nat) : Option Entry :=
  (visited? setting s n).bind fun node => remark? setting node (entering setting s n)

theorem entries_drain_succ (setting : Setting) (s : State) (n : Nat) :
    ∃ ws : List Entry, (∀ e ∈ ws, e.isWarning = true) ∧
      (drain setting (n + 1) s).trace.entries =
        (drain setting n s).trace.entries ++ ws ++ (remarkAt? setting s n).toList := by
  cases hv : visited? setting s n with
  | none =>
    rw [drain_succ_of_visited?_eq_none hv]
    exact ⟨[], by simp, by simp [remarkAt?, hv]⟩
  | some node =>
    rw [drain_succ_of_visited? hv, remarkAt?, hv]
    exact entries_visit setting node (entering setting s n)

theorem writtenAt_eq (setting : Setting) (s : State) (n : Nat) :
    ∃ ws : List Entry, (∀ e ∈ ws, e.isWarning = true) ∧
      writtenAt setting s n = ws ++ (remarkAt? setting s n).toList := by
  obtain ⟨ws, hws, h⟩ := entries_drain_succ setting s n
  refine ⟨ws, hws, ?_⟩
  rw [writtenAt, h, List.append_assoc]
  exact List.drop_left

theorem entries_append_writtenAt (setting : Setting) (s : State) (n : Nat) :
    (drain setting n s).trace.entries ++ writtenAt setting s n =
      (drain setting (n + 1) s).trace.entries := by
  obtain ⟨ws, -, h⟩ := entries_drain_succ setting s n
  rw [List.append_assoc] at h
  exact List.prefix_append_drop ⟨_, h.symm⟩ |>.symm

theorem entries_drain (setting : Setting) (s : State) (n : Nat) :
    (drain setting n s).trace.entries =
      s.trace.entries ++ (List.range n).flatMap (writtenAt setting s) := by
  induction n with
  | zero => simp [drain]
  | succ n ih =>
    rw [← entries_append_writtenAt, ih, List.range_succ, List.flatMap_append]
    simp

theorem countP_remarkAt? (hl : setting.config.maxLoopIterations.plain = .ok shown) (s : State)
    (n : Nat) :
    (remarkAt? setting s n).toList.countP Entry.isError =
      (failsAt setting s n).toNat + (abortsAt setting s n).toNat := by
  rw [remarkAt?, failsAt, abortsAt]
  cases visited? setting s n with
  | none => rfl
  | some node => exact countP_remark? hl

theorem errors_drain (hl : setting.config.maxLoopIterations.plain = .ok shown) (s : State)
    (n : Nat) :
    (drain setting n s).trace.errors = s.trace.errors +
      (List.range n).countP (failsAt setting s) + (List.range n).countP (abortsAt setting s) := by
  induction n with
  | zero => rfl
  | succ n ih =>
    obtain ⟨ws, hws, h⟩ := entries_drain_succ setting s n
    rw [Trace.errors] at ih ⊢
    rw [h, List.countP_append, List.countP_append, Entry.countP_isError hws, countP_remarkAt? hl,
      ih, List.range_succ, List.countP_append, List.countP_append, List.countP_singleton,
      List.countP_singleton]
    cases failsAt setting s n <;> cases abortsAt setting s n <;> simp <;> omega

theorem entries_of_conclude (h : conclude setting entry s = (.ok (), t)) :
    ∃ listing, t.bindings.listing = .ok listing ∧ t.trace.entries = s.trace.entries ++
      (if s.queue.isEmpty then []
        else [.error (.stepLimit entry setting.config.maxSteps s.queue.length)]) ++
      (Trace.separator :: listing).map .trailer := by
  unfold conclude Trace.close at h
  cases hl : s.bindings.listing with
  | error fault => simp [hl] at h
  | ok listing =>
    simp only [hl, Prod.mk.injEq, true_and] at h
    subst h
    refine ⟨listing, hl, ?_⟩
    cases s.queue <;> simp [State.trace, Trace.append, Trace.report]

theorem lines_of_conclude (h : conclude setting entry s = (.ok (), t)) :
    ∃ listing, t.bindings.listing = .ok listing ∧ t.trace.lines = s.trace.lines ++
      (if s.queue.isEmpty then []
        else [("Error: Maximum execution limit reached. Possible infinite loop." : Text)]) ++
      ("---" : Text) :: listing := by
  obtain ⟨listing, hl, ht⟩ := entries_of_conclude h
  refine ⟨listing, hl, ?_⟩
  have hlisting : (listing.map Entry.trailer).map Entry.line = listing := by
    simp [Function.comp_def, Entry.line]
  rw [Trace.lines, ht, List.map_append, List.map_append, List.map_cons, List.map_cons, hlisting]
  cases s.queue <;> rfl

theorem errors_of_conclude (h : conclude setting entry s = (.ok (), t)) :
    t.trace.errors = s.trace.errors + (!s.queue.isEmpty).toNat := by
  obtain ⟨listing, -, ht⟩ := entries_of_conclude h
  rw [Trace.errors, ht, List.countP_append, List.countP_append]
  cases s.queue <;> simp [Trace.errors, Entry.isError]

/-- What the result of a run with an entry node says of its visits, of which `permitted` were
allowed: the lines are those of the visits in their order, then a line if nodes were still queued,
and the listing of the variables; the errors are the failures, the loops cut off, and the nodes
still queued. -/
structure Reports (setting : Setting) (s : State) (permitted : Nat) (r : Result)
    (lines : List Text) : Prop where
  visits : ∀ n < permitted, ∃ ws : List Entry, (∀ e ∈ ws, e.isWarning = true) ∧
    writtenAt setting (opened setting s) n =
      ws ++ (remarkAt? setting (opened setting s) n).toList
  shape : ∃ listing, r.state.bindings.listing = .ok listing ∧
    lines =
      ((List.range permitted).flatMap (writtenAt setting (opened setting s))).map Entry.line ++
      (if r.state.queue.isEmpty then []
        else [("Error: Maximum execution limit reached. Possible infinite loop." : Text)]) ++
      ("---" : Text) :: listing
  steps : r.state.queue ≠ [] → r.state.steps = permitted
  errors : r.state.trace.errors =
    (List.range permitted).countP (failsAt setting (opened setting s)) +
      (List.range permitted).countP (abortsAt setting (opened setting s)) +
      (!r.state.queue.isEmpty).toNat

theorem reports_start {others : List Node} {permitted : Nat} {lines : List Text}
    (he : setting.graph.nodesOfKind .beginPlay = entry :: others)
    (hp : setting.config.permittedSteps = .ok permitted)
    (hl : setting.config.maxLoopIterations.plain = .ok shown)
    (hs : fresh setting.config = .ok s) (h : (start setting s).lines = .ok lines) :
    Reports setting s permitted (start setting s) lines := by
  obtain ⟨hblank, hzero⟩ :
      (opened setting s).trace.entries = [] ∧ (opened setting s).steps = 0 := by
    obtain ⟨generator, rfl⟩ := fresh_eq_ok hs
    exact ⟨rfl, rfl⟩
  have hentries := entries_drain setting (opened setting s) permitted
  have herrors := errors_drain hl (opened setting s) permitted
  have hsteps := steps_drain (inGraph_opened setting s) permitted
  rw [start_of_entry setting he hp] at h ⊢
  cases hc : conclude setting entry (drain setting permitted (opened setting s)) with
  | mk closed t =>
    rw [hc] at h
    cases closed with
    | error fault => cases h
    | ok _ =>
      cases h
      obtain ⟨listing, hlisting, hlines⟩ := lines_of_conclude hc
      have hq : t.queue = (drain setting permitted (opened setting s)).queue :=
        congrArg (·.2.queue) hc.symm
      have hn : t.steps = (drain setting permitted (opened setting s)).steps :=
        congrArg (·.2.steps) hc.symm
      refine ⟨fun n _ => writtenAt_eq setting _ n, ⟨listing, hlisting, ?_⟩, ?_, ?_⟩
      · dsimp only
        rw [hlines, hq, Trace.lines, hentries, hblank, List.nil_append]
      · intro hne
        dsimp only at hne ⊢
        rw [hq] at hne
        rw [hn, hsteps, length_visits_of_queue_ne_nil hne, hzero, Nat.zero_add]
      · dsimp only
        rw [errors_of_conclude hc, hq, herrors, Trace.errors, hblank, List.countP_nil,
          Nat.zero_add]

theorem exists_plain_int {c : Int} (h : Decimal.Short c) :
    ∃ shown, (Value.int c).plain = .ok shown := by
  refine (Value.writtenIf_plain (.int c)).ok_iff.mpr fun f => ?_
  exact (Value.Avoids.int_iff Value.one_le_depthLimit).mpr fun _ => h

/-- Whatever a run prints, a line follows that is not the one of a graph without an entry node. -/
theorem Reports.ne_entryNotFound {permitted : Nat} {r : Result} {lines : List Text}
    (h : Reports setting s permitted r lines) : lines ≠ [entryNotFound] := by
  obtain ⟨listing, -, hlines⟩ := h.shape
  have hmem : ("---" : Text) ∈ lines := by
    rw [hlines]
    exact List.mem_append_right _ List.mem_cons_self
  rintro rfl
  exact absurd (List.mem_singleton.mp hmem) (by decide)

open CommandLine in
theorem call_eq_finished {around : Surroundings} {words : List String} {i : Invocation}
    {threshold : Nat} {config : Config} {graph : Graph} {r : Result} {lines : List Text}
    (hwords : parseArguments words = .ok i) (hthreshold : Log.threshold i.logLevel = .ok threshold)
    (hcheck : (i.config around.entropy).check = .ok config) (hload : load around i.path = .ok graph)
    (hr : run { graph, config } = .ok r) (hl : r.lines = .ok lines) :
    call around words = .finished (exitCodeOf lines) lines (Log.shown threshold r.events) := by
  simp only [call, hwords, execute, hthreshold, hcheck, hload, hr, ended, hl]

open CommandLine in
/-- What a run returns that returns its lines: without an entry node the one line that says so, and
nothing has been done; otherwise the report of the visits. The one line is returned for no other
graph, whatever is printed, so that the exit code tells such graphs apart. -/
theorem run_reports (graph : Graph) (config : Config) {m c : Int} (hm : config.maxSteps = .int m)
    (hc : config.maxLoopIterations = .int c) (hshort : Decimal.Short c)
    (hs : fresh config = .ok s) {r : Result} {lines : List Text}
    (hr : run { graph, config } = .ok r) (hl : r.lines = .ok lines) :
    (graph.nodesOfKind .beginPlay = [] →
      lines = [entryNotFound] ∧ r.state.steps = 0 ∧ r.state.trace.warnings = 0 ∧
        r.state.trace.errors = 0 ∧ r.state.evaluation.cacheHits = 0 ∧
        r.state.evaluation.generation = 0) ∧
    (graph.nodesOfKind .beginPlay ≠ [] → Reports { graph, config } s m.toNat r lines) ∧
    (lines = [entryNotFound] ↔ graph.nodesOfKind .beginPlay = []) ∧
    ∀ around words i threshold, parseArguments words = .ok i → i.config around.entropy = config →
      Log.threshold i.logLevel = .ok threshold → config.check = .ok config →
      load around i.path = .ok graph →
      call around words =
        .finished (if (graph.nodesOfKind .beginPlay).isEmpty then 2 else 0) lines
          (Log.shown threshold r.events) := by
  obtain ⟨shown, hshown⟩ := exists_plain_int hshort
  rw [← hc] at hshown
  have hp : config.permittedSteps = .ok m.toNat := by
    rw [Config.permittedSteps, hm]
    rfl
  have hstart : r = start { graph, config } s := by
    rw [run, hs] at hr
    exact (Except.ok.inj hr).symm
  have hno (he : graph.nodesOfKind .beginPlay = []) :
      lines = [entryNotFound] ∧ r.state = s := by
    rw [hstart, start_of_no_entry { graph, config } he] at hl ⊢
    exact ⟨(Except.ok.inj hl).symm, rfl⟩
  have hreports (he : graph.nodesOfKind .beginPlay ≠ []) :
      Reports { graph, config } s m.toNat r lines := by
    obtain ⟨entry, others, he⟩ := List.exists_cons_of_ne_nil he
    subst hstart
    exact reports_start he hp hshown hs hl
  have hiff : lines = [entryNotFound] ↔ graph.nodesOfKind .beginPlay = [] := by
    refine ⟨fun h => ?_, fun he => (hno he).1⟩
    by_contra he
    exact (hreports he).ne_entryNotFound h
  refine ⟨fun he => ⟨(hno he).1, ?_⟩, hreports, hiff, ?_⟩
  · obtain ⟨generator, rfl⟩ := fresh_eq_ok hs
    rw [(hno he).2]
    exact ⟨rfl, rfl, rfl, rfl, rfl⟩
  · rintro around words i threshold hwords rfl hthreshold hcheck hload
    rw [call_eq_finished hwords hthreshold hcheck hload hr hl, exitCodeOf]
    simp only [hiff, List.isEmpty_iff]

end

namespace Impostor

open Sample

def impostor : Node :=
  { print "print" with properties := ⟨[("text", .text entryNotFound)]⟩ }

def graph : Graph :=
  .ofLists [entry, impostor]
    [⟨"1", "entry", "then", "print", "in", .exec⟩, ⟨"2", "print", "then", "print", "in", .exec⟩]

def config : Config := { maxSteps := .int 3, maxLoopIterations := .int 10, seed := .int 0 }

/-- The line is printed twice before the limit of steps is reached. -/
theorem run_reports_impostor :
    config.maxSteps = .int 3 ∧ config.maxLoopIterations = .int 10 ∧ Decimal.Short 10 ∧
      fresh config = .ok initial ∧ ∃ r lines, run { graph, config } = .ok r ∧ r.lines = .ok lines ∧
        lines.take 2 = [entryNotFound, entryNotFound] ∧ r.state.queue.length = 1 ∧
        Reports { graph, config } initial 3 r lines ∧ lines ≠ [entryNotFound] := by
  have hshort : Decimal.Short 10 := by
    unfold Decimal.Short
    decide +kernel
  let r := Run.start { graph, config } initial
  cases hl : r.lines with
  | error fault =>
    have hok : r.lines.toBool = true := by decide +kernel
    rw [hl] at hok
    cases hok
  | ok lines =>
    have htake : r.lines.toOption.map (·.take 2) = some [entryNotFound, entryNotFound] := by
      decide +kernel
    obtain ⟨-, hreports, hiff, -⟩ := run_reports graph config rfl rfl hshort rfl rfl hl
    rw [hl] at htake
    exact ⟨rfl, rfl, hshort, rfl, r, lines, rfl, hl, Option.some.inj htake, by decide +kernel,
      hreports (by decide +kernel), fun h => absurd (hiff.mp h) (by decide +kernel)⟩

end Impostor

theorem writtenIf_conclude (setting : Setting) (entry : Node) (s : State) :
    WrittenIf s.bindings.Avoids (conclude setting entry s).1 := by
  have h := s.bindings.writtenIf_listing
  unfold conclude Trace.close
  cases hl : s.bindings.listing with
  | ok ls => exact .of_ok (h.ok ls hl) ()
  | error f => exact .of_error (h.error f hl)

theorem bindings_conclude (setting : Setting) (entry : Node) (s : State) :
    (conclude setting entry s).2.bindings = s.bindings := rfl

/-- A run that begins without variables returns its lines if its variables can be listed in the
end. -/
theorem writtenIf_start {setting : Setting} {s : State} (hs : s.bindings.entries = [])
    {permitted : Nat} (hp : setting.config.permittedSteps = .ok permitted) :
    WrittenIf (start setting s).state.bindings.Avoids (start setting s).lines := by
  unfold start
  split
  · refine .of_ok (fun f e he => ?_) _
    rw [hs] at he
    cases he
  · rename_i entry others _
    let t := drain setting permitted { s with queue := [entry] }
    have h := writtenIf_conclude setting entry t
    rw [← bindings_conclude setting entry t] at h
    rw [hp]
    dsimp only
    rcases hc : conclude setting entry t with ⟨fault | _, u⟩
    · rw [hc] at h
      exact h.map fun _ => u.trace.lines
    · rw [hc] at h
      exact h.map fun _ => u.trace.lines

/-- With integer limits and seed a run returns, and it returns its lines unless a variable holds an
integer with too many digits in the end, or has too many levels. -/
theorem run_lines_iff (graph : Graph) (memo : Bool) (maxSteps maxLoopIterations seed : Int)
    (entropy : Entropy) :
    ∃ r,
      run { graph, memo, config := ⟨.int maxSteps, .int maxLoopIterations, .int seed, entropy⟩ } =
        .ok r ∧
      ((∃ lines, r.lines = .ok lines) ↔ ∀ e ∈ r.state.bindings.entries,
        (∀ n, e.2.Holds n → n.natAbs < Nat.pow 10 Decimal.digitLimit) ∧
          e.2.depth 0 ≤ Value.depthLimit) ∧
      ∀ fault, r.lines = .error fault → ∃ e ∈ r.state.bindings.entries,
        (fault = .integerTooLong ∧
          ∃ n, e.2.Holds n ∧ ¬n.natAbs < Nat.pow 10 Decimal.digitLimit) ∨
        fault = .literalTooDeep ∧ Value.depthLimit < e.2.depth 0 := by
  let setting : Setting :=
    { graph, memo, config := ⟨.int maxSteps, .int maxLoopIterations, .int seed, entropy⟩ }
  let s : State := { evaluation := { generator := .ofSeed seed entropy } }
  have h : WrittenIf (start setting s).state.bindings.Avoids (start setting s).lines :=
    writtenIf_start rfl rfl
  refine ⟨start setting s, rfl, h.ok_iff.trans ⟨fun h e he => ?_, fun h f e he => ?_⟩, ?_⟩
  · exact ⟨(h .integerTooLong e he).short rfl, (h .literalTooDeep e he).shallow rfl⟩
  · exact ⟨fun _ => (h e he).1, fun _ => (h e he).2⟩
  · intro fault hfault
    obtain ⟨e, he⟩ := Classical.not_forall.mp (h.error fault hfault)
    obtain ⟨hmem, he⟩ := Classical.not_imp.mp he
    exact ⟨e, hmem, Value.not_avoids_iff.mp he⟩

namespace Unlistable

open Sample

def assignment : Node :=
  { id := "assignment"
    kind := .setVariable
    inputs := [⟨"value", "assignment", "Value", .any, .input⟩]
    properties := ⟨[("name", .text "x")]⟩ }

def assigning (v : Value) : Setting :=
  setting (.ofLists [entry, literal v, assignment]
    [⟨"1", "entry", "then", "assignment", "in", .exec⟩,
      ⟨"2", "literal", "value", "assignment", "value", .integer⟩])

/-- The variable is set, but cannot be listed: its value has 4335 digits, or a level too many. -/
theorem run_lines_eq_error :
    (∃ r, run (assigning (.int (Int.ofNat (Nat.pow 16 3600)))) = .ok r ∧
      r.lines = .error .integerTooLong) ∧
    ∃ r, run (assigning (.nest Value.depthLimit)) = .ok r ∧ r.lines = .error .literalTooDeep := by
  have hlong : (Run.start (assigning (.int (Int.ofNat (Nat.pow 16 3600)))) initial).lines =
      .error .integerTooLong :=
    Except.eq_error_of_error? (by decide +kernel)
  have hdeep : (Run.start (assigning (.nest Value.depthLimit)) initial).lines =
      .error .literalTooDeep :=
    Except.eq_error_of_error? (by decide +kernel)
  exact ⟨⟨_, rfl, hlong⟩, ⟨_, rfl, hdeep⟩⟩

end Unlistable

end NodeScript.Run
