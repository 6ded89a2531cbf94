import NodeScript.CommandLine
import NodeScript.Proofs.Decoding
import NodeScript.Proofs.Legibility
import NodeScript.Proofs.Limits

/-!
What a call does with its document. A document that cannot be read, that is no JSON or that is
malformed is reported, and one that is well formed is run. Four things escape instead: a path that
can belong to no file, octets that are no text, a text that goes beyond the limits of reading, and
a coordinate outside of the range of floats.
-/

namespace NodeScript

theorem Judged.outcome {α : Type} {p : Fault → Prop} {q : Prop} {e : Except LoadError α}
    (h : Judged p q e) :
    (∃ x, e = .ok x ∧ (∀ f, p f) ∧ q) ∨
    (∃ f, e = .error (.fault f) ∧ ¬p f) ∨
    ∃ r, e = .error r ∧ r.isFault = false ∧ ¬q := by
  cases e with
  | ok x => exact .inl ⟨x, rfl, h⟩
  | error r =>
    cases r with
    | fault f => exact .inr (.inl ⟨f, rfl, h⟩)
    | _ => exact .inr (.inr ⟨_, rfl, rfl, h⟩)

namespace Document

variable {v w : Value}

def inRange : Standard where
  text _ := True
  tag _ _ _ _ := True
  coordinate v := ∀ n, v = .int n → (Binary64.ofInt? n).isSome
  shape _ := True

/-- A value of a document that has been read from a text: it has a text of its own, and so have its
parts. -/
structure Within (v : Value) : Prop where
  fits : v.Fits Json.maxDepth
  writable : v.Writable

theorem within_of_fits (h : v.Fits (Value.depthLimit - 1)) : Within v :=
  ⟨h.mono (by decide), h.writable (by decide)⟩

theorem within_null : Within .null := ⟨Value.fits_of_isScalar rfl _, Value.writable_of_isScalar rfl⟩

theorem within_field? {key : Text} (hv : v.Fits Json.maxDepth) (h : v.field? key = some w) :
    Within w := by
  cases v with
  | record entries =>
    obtain ⟨e, he, rfl⟩ := Option.map_eq_some_iff.mp h
    exact within_of_fits (hv.entry (List.mem_of_find?_eq_some he))
  | _ => cases h

theorem within_item {items : List Value} (hv : v.Fits Json.maxDepth) (h : v = .list items)
    (hw : w ∈ items) : Within w := by
  subst h
  exact within_of_fits (hv.item hw)

theorem within_field (hv : v.Fits Json.maxDepth) (key : Text) : Within (field v key) := by
  unfold field
  cases h : v.field? key with
  | none => exact within_null
  | some w => exact within_field? hv h

theorem within_first (hv : v.Fits Json.maxDepth) (keys : List Text) : Within (first v keys) := by
  induction keys with
  | nil => exact within_null
  | cons key keys ih =>
    unfold first
    split
    · exact ih
    · exact ih
    · rename_i h
      exact within_field? hv h

section

variable (hv : v.Fits Json.maxDepth) (f : Fault)

include hv

theorem text_field (key : Text) : (legible f).text (field v key) := (within_field hv key).writable f

theorem text_first (keys : List Text) : (legible f).text (first v keys) :=
  (within_first hv keys).writable f

theorem tag_first (α : Type) [Vocabulary α] (default? : Option α) (keys : List Text) :
    (legible f).tag α default? (first v keys) := .inr (.inr (text_first hv f keys))

theorem legible_pins (side : Direction) : (legible f).AdmitsPins side v := by
  intro items h p hp _
  have hp := (within_item hv h hp).fits
  exact ⟨text_field hp f _, fun _ => ⟨text_first hp f _, text_field hp f _, tag_first hp f _ _ _,
    .inr (.inr (text_field hp f _))⟩⟩

theorem legible_node (h : f = .integerTooLarge → inRange.AdmitsNode v) :
    (legible f).AdmitsNode v := by
  intro ho
  refine ⟨text_field hv f _, fun hid => ⟨tag_first hv f _ _ _, ?_, ?_, text_field hv f _,
    text_field hv f _, fun hf => ?_, fun hf => ?_⟩⟩
  · exact legible_pins (within_field hv _).fits f _
  · exact legible_pins (within_field hv _).fits f _
  · obtain ⟨-, -, -, -, -, hx, -⟩ := (h hf ho).2 hid
    exact hx
  · obtain ⟨-, -, -, -, -, -, hy⟩ := (h hf ho).2 hid
    exact hy

theorem legible_wire : (legible f).AdmitsWire v :=
  fun _ => ⟨text_first hv f _, text_first hv f _, text_first hv f _, text_first hv f _,
    fun _ => ⟨text_field hv f _, tag_first hv f _ _ _⟩⟩

/-- Once a document has been read from a text, only its coordinates can still lead to a fault. -/
theorem legible_iff_inRange :
    (legible f).Admits v ↔ (f = .integerTooLarge → inRange.Admits v) := by
  constructor
  · rintro ⟨-, -, -, hnodes, -⟩ hf
    refine ⟨trivial, trivial, trivial, fun items h n hn ho => ⟨trivial, fun hid => ?_⟩, ?_⟩
    · obtain ⟨-, -, -, -, -, hx, hy⟩ := (hnodes items h n hn ho).2 hid
      exact ⟨trivial, fun _ _ _ _ _ => ⟨trivial, fun _ => ⟨trivial, trivial, trivial, trivial⟩⟩,
        fun _ _ _ _ _ => ⟨trivial, fun _ => ⟨trivial, trivial, trivial, trivial⟩⟩, trivial, trivial,
        hx hf, hy hf⟩
    · exact fun _ _ _ _ _ => ⟨trivial, trivial, trivial, trivial, fun _ => ⟨trivial, trivial⟩⟩
  · intro hrange
    have hwires : ((v.field? "wires").getD (field v "edges")).Fits Json.maxDepth := by
      cases h : v.field? "wires" with
      | none => exact (within_field hv _).fits
      | some w => exact (within_field? hv h).fits
    refine ⟨trivial, trivial, trivial, fun items h n hn => ?_, fun items h w hw => ?_⟩
    · have hfits := (within_item (within_field hv _).fits h hn).fits
      exact legible_node hfits f fun hf => (hrange hf).2.2.2.1 items h n hn
    · exact legible_wire (within_item hwires h hw).fits f

end

theorem judged_read_fits (hv : v.Fits Json.maxDepth) :
    Judged (fun f => f = .integerTooLarge → inRange.Admits v) (wellFormed.Admits v) (read v) :=
  (judged_read v).congr (legible_iff_inRange hv) Iff.rfl

end Document

namespace CommandLine

open Document

variable {around : Surroundings} {words : List String} {i : Invocation} {threshold : Nat}
  {config : Config} {path text : String} {octets : List Nat}

/-- The document is reported as one that could not be loaded. Such an outcome has no lines to print,
and its exit code is the one for this report. -/
def Outcome.Refuses (o : Outcome) : Prop :=
  o.exitCode = 1 ∧ ∃ message events, o = .notLoaded message events

def proceed (threshold : Nat) (config : Config) (graph : Graph) : Outcome :=
  match Run.run { graph, config } with
  | .error f => .escaped (.fault f) []
  | .ok result => ended threshold result

/-- The document at a path is this text: the standard input, or the text that the octets of the file
encode, with the ends of its lines made equal. -/
inductive Supplies (around : Surroundings) : String → String → Prop
  | input : Supplies around inputPath around.input
  | file {path : String} {octets : List Nat} {s : String} (hpath : path ≠ inputPath)
      (hnull : '\x00' ∉ path.toList) (hfile : around.file (normalizePath path) = .ok octets)
      (hs : Text.encodeUtf8 s = .ok octets) :
      Supplies around path (String.ofList (Text.normalizeLines s.toList))

theorem load_of_null (hpath : path ≠ inputPath) (hnull : '\x00' ∈ path.toList) :
    load around path = .error (.fault .nullInPath) := by
  have hcontains : path.toList.contains '\x00' = true := List.contains_iff_mem.mpr hnull
  rw [load, readText, if_neg hpath, if_pos hcontains]
  rfl

section

variable (hpath : path ≠ inputPath) (hnull : '\x00' ∉ path.toList)

include hpath hnull

theorem readText_of_file : readText around path =
    (around.file (normalizePath path)).mapError (.unreadable · (normalizePath path)) >>=
    fun octets =>
      (Text.decodeUtf8 octets).mapError .undecodable >>= fun text =>
        .ok (String.ofList (Text.normalizeLines text.toList)) := by
  have hcontains : ¬path.toList.contains '\x00' = true := mt List.contains_iff_mem.mp hnull
  rw [readText, if_neg hpath, if_neg hcontains]
  rfl

theorem load_of_unreadable {failure : ReadFailure}
    (hfile : around.file (normalizePath path) = .error failure) :
    load around path = .error (.unreadable failure (normalizePath path)) := by
  rw [load, readText_of_file hpath hnull, hfile]
  rfl

theorem load_of_undecodable (hfile : around.file (normalizePath path) = .ok octets)
    (h : ∀ s : String, Text.encodeUtf8 s ≠ .ok octets) :
    ∃ failure, Text.decodeUtf8 octets = .error failure ∧
      load around path = .error (.undecodable failure) := by
  cases hd : Text.decodeUtf8 octets with
  | ok s => exact absurd (Text.decodeUtf8_eq_ok_iff.mp hd) (h s)
  | error failure =>
    refine ⟨failure, rfl, ?_⟩
    rw [load, readText_of_file hpath hnull, hfile]
    change (((Text.decodeUtf8 octets).mapError LoadFailure.undecodable >>= _) >>= _) = _
    rw [hd]
    rfl

end

theorem readText_of_supplies (h : Supplies around path text) : readText around path = .ok text := by
  cases h with
  | input => rfl
  | file hpath hnull hfile hs =>
    rw [readText_of_file hpath hnull, hfile]
    change ((Text.decodeUtf8 _).mapError LoadFailure.undecodable >>= _) = _
    rw [Text.decodeUtf8_eq_ok_iff.mpr hs]
    rfl

theorem load_of_supplies (h : Supplies around path text) : load around path =
    (Json.read text).mapError (.malformed · text) >>= fun document =>
      (Document.read document).mapError .refused := by
  rw [load, readText_of_supplies h]
  rfl

theorem load_of_read_error {failure : Json.Failure} (hs : Supplies around path text)
    (h : Json.read text = .error failure) :
    load around path = .error (.malformed failure text) := by
  rw [load_of_supplies hs, h]
  rfl

theorem load_of_read_ok {v : Value} (hs : Supplies around path text) (h : Json.read text = .ok v) :
    load around path = (Document.read v).mapError .refused := by
  rw [load_of_supplies hs, h]
  rfl

theorem report_refused {e : LoadError} (h : e.isFault = false) :
    ∃ reason, (LoadFailure.refused e).report = .ok reason := by
  cases e with
  | fault f => cases h
  | _ => exact ⟨_, rfl⟩

/-- What a call with this text as its document comes to. -/
structure Answers (threshold : Nat) (config : Config) (text : String) (o : Outcome) : Prop where
  unparsed : ∀ failure, Json.read text = .error failure → o.Refuses ∨
    Json.keeps .outside Json.maxDepth text.toList = false ∧
      ∃ f, Json.Excessive f ∧ failure = .fault f ∧ o = .escaped (.fault f) []
  run : ∀ v, Json.read text = .ok v → inRange.Admits v → wellFormed.Admits v →
    ∃ graph, Document.read v = .ok graph ∧ o = proceed threshold config graph
  malformed : ∀ v, Json.read text = .ok v → inRange.Admits v → ¬wellFormed.Admits v → o.Refuses
  outOfRange : ∀ v, Json.read text = .ok v → ¬inRange.Admits v →
    o = .escaped (.fault .integerTooLarge) [] ∨ ¬wellFormed.Admits v ∧ o.Refuses

section

variable (hwords : parseArguments words = .ok i) (hlevel : Log.threshold i.logLevel = .ok threshold)
  (hconfig : (i.config around.entropy).check = .ok config)

include hwords hlevel hconfig

theorem call_of_load_error {failure : LoadFailure} (h : load around i.path = .error failure) :
    call around words = notLoaded threshold i.path failure := by
  simp only [call, hwords, execute, hlevel, hconfig, h]

theorem call_of_load_ok {graph : Graph} (h : load around i.path = .ok graph) :
    call around words = proceed threshold config graph := by
  simp only [call, hwords, execute, hlevel, hconfig, h]
  rfl

theorem refuses_of_report {failure : LoadFailure} {reason : Text}
    (h : load around i.path = .error failure) (hreport : failure.report = .ok reason) :
    (call around words).Refuses := by
  rw [call_of_load_error hwords hlevel hconfig h, notLoaded, hreport]
  exact ⟨rfl, _, _, rfl⟩

theorem escaped_of_report {failure : LoadFailure} {escape : Escape}
    (h : load around i.path = .error failure) (hreport : failure.report = .error escape) :
    call around words = .escaped escape [] := by
  rw [call_of_load_error hwords hlevel hconfig h, notLoaded, hreport]

theorem refuses_of_read {v : Value} {e : LoadError} (hs : Supplies around i.path text)
    (hv : Json.read text = .ok v) (he : Document.read v = .error e) (hfault : e.isFault = false) :
    (call around words).Refuses := by
  obtain ⟨reason, hreport⟩ := report_refused hfault
  have hload := load_of_read_ok hs hv
  rw [he] at hload
  exact refuses_of_report hwords hlevel hconfig hload hreport

theorem escaped_of_read {v : Value} {f : Fault} (hs : Supplies around i.path text)
    (hv : Json.read text = .ok v) (he : Document.read v = .error (.fault f)) :
    call around words = .escaped (.fault f) [] := by
  have hload := load_of_read_ok hs hv
  rw [he] at hload
  exact escaped_of_report hwords hlevel hconfig hload rfl

theorem answers_call (hs : Supplies around i.path text) :
    Answers threshold config text (call around words) := by
  constructor
  case unparsed =>
    intro failure hfailure
    have hload := load_of_read_error hs hfailure
    rcases Json.read_cases text with
      ⟨v, hv, -⟩ | ⟨reason, position, h⟩ | ⟨f, hf, hexcessive, hkeeps⟩
    · cases hfailure.symm.trans hv
    · cases hfailure.symm.trans h
      exact .inl (refuses_of_report hwords hlevel hconfig hload rfl)
    · cases hfailure.symm.trans hf
      exact .inr ⟨hkeeps, f, hexcessive, rfl, escaped_of_report hwords hlevel hconfig hload rfl⟩
  case run =>
    intro v hv hrange hformed
    rcases (judged_read_fits (Json.fits_of_read hv)).outcome with
      ⟨graph, hgraph, -⟩ | ⟨f, -, hn⟩ | ⟨e, -, -, hn⟩
    · have hload := load_of_read_ok hs hv
      rw [hgraph] at hload
      exact ⟨graph, hgraph, call_of_load_ok hwords hlevel hconfig hload⟩
    · exact absurd (fun _ => hrange) hn
    · exact absurd hformed hn
  case malformed =>
    intro v hv hrange hformed
    rcases (judged_read_fits (Json.fits_of_read hv)).outcome with
      ⟨graph, -, -, h⟩ | ⟨f, -, hn⟩ | ⟨e, he, hfault, -⟩
    · exact absurd h hformed
    · exact absurd (fun _ => hrange) hn
    · exact refuses_of_read hwords hlevel hconfig hs hv he hfault
  case outOfRange =>
    intro v hv hrange
    rcases (judged_read_fits (Json.fits_of_read hv)).outcome with
      ⟨graph, -, h, -⟩ | ⟨f, he, hn⟩ | ⟨e, he, hfault, hn⟩
    · exact absurd (h _ rfl) hrange
    · obtain ⟨rfl, -⟩ := Classical.not_imp.mp hn
      exact .inl (escaped_of_read hwords hlevel hconfig hs hv he)
    · exact .inr ⟨hn, refuses_of_read hwords hlevel hconfig hs hv he hfault⟩

end

/-- For every call whose words and limits are accepted: a level that is no level escapes, and so do
a path that no file has and a file that is not UTF-8. A file that cannot be read is reported. Every
other document is a text, for which `Answers` says what the call comes to. -/
theorem call_with_document (around : Surroundings) (hwords : parseArguments words = .ok i)
    (hconfig : (i.config around.entropy).check = .ok config) :
    (∀ f, Log.threshold i.logLevel = .error f → call around words = .escaped (.fault f) []) ∧
    ∀ threshold, Log.threshold i.logLevel = .ok threshold →
      (i.path ≠ inputPath → '\x00' ∈ i.path.toList →
        call around words = .escaped (.fault .nullInPath) []) ∧
      (i.path ≠ inputPath → '\x00' ∉ i.path.toList →
        (∀ failure, around.file (normalizePath i.path) = .error failure →
          (call around words).Refuses) ∧
        ∀ octets, around.file (normalizePath i.path) = .ok octets →
          (∀ s : String, Text.encodeUtf8 s ≠ .ok octets) →
          ∃ failure, Text.decodeUtf8 octets = .error failure ∧
            call around words = .escaped (.undecodable failure) []) ∧
      ∀ text, Supplies around i.path text →
        Answers threshold config text (call around words) := by
  refine ⟨fun f hf => ?_, fun threshold hlevel => ⟨fun hpath hnull => ?_, fun hpath hnull =>
    ⟨fun failure hfile => ?_, fun octets hfile hs => ?_⟩, fun text hs => ?_⟩⟩
  · simp only [call, hwords, execute, hf]
  · exact escaped_of_report hwords hlevel hconfig (load_of_null hpath hnull) rfl
  · exact refuses_of_report hwords hlevel hconfig (load_of_unreadable hpath hnull hfile) rfl
  · obtain ⟨failure, hd, hload⟩ := load_of_undecodable hpath hnull hfile hs
    exact ⟨failure, hd, escaped_of_report hwords hlevel hconfig hload rfl⟩
  · exact answers_call hwords hlevel hconfig hs

namespace Handed

/-- Every file holds these octets. -/
def holding (octets : List Nat) : Surroundings := { input := "", file := fun _ => .ok octets }

def command : List String := ["run", "graph.json"]

def invocation : Invocation := { path := "graph.json" }

def scrambled : List Nat := [0xFF, 0x7B, 0x7D]

theorem decodeUtf8_scrambled : Text.decodeUtf8 scrambled = .error ⟨.badStart, 0xFF, 0, 1⟩ := rfl

/-- A file that is not UTF-8 is not reported. -/
theorem call_scrambled :
    call (holding scrambled) command = .escaped (.undecodable ⟨.badStart, 0xFF, 0, 1⟩) [] ∧
      ¬(call (holding scrambled) command).Refuses := by
  have h : call (holding scrambled) command =
      .escaped (.undecodable ⟨.badStart, 0xFF, 0, 1⟩) [] := rfl
  refine ⟨h, ?_⟩
  rintro ⟨-, message, events, hrefused⟩
  cases h.symm.trans hrefused

def unclosed : List Nat := [0x5B, 0x31]

def empty : List Nat := [0x7B, 0x7D]

theorem supplies_unclosed : Supplies (holding unclosed) invocation.path "[1" :=
  .file (s := "[1") (by decide) (by decide) rfl rfl

theorem supplies_empty : Supplies (holding empty) invocation.path "\x7b\x7d" :=
  .file (s := "\x7b\x7d") (by decide) (by decide) rfl rfl

/-- An array without its end is reported, an empty object is run, and what is no text escapes. -/
theorem call_with_document_handed :
    parseArguments command = .ok invocation ∧ invocation.config.check = .ok invocation.config ∧
    Log.threshold invocation.logLevel = .ok 30 ∧
    (call (holding unclosed) command).Refuses ∧
    (∃ graph, Document.read (.record []) = .ok graph ∧
      call (holding empty) command = proceed 30 invocation.config graph) ∧
    ∃ failure, call (holding scrambled) command = .escaped (.undecodable failure) [] := by
  have hwords : parseArguments command = .ok invocation := rfl
  have hconfig : invocation.config.check = .ok invocation.config := rfl
  have hlevel : Log.threshold invocation.logLevel = .ok 30 := rfl
  refine ⟨hwords, hconfig, hlevel, ?_, ?_, ?_⟩
  · have h := (call_with_document (holding unclosed) hwords hconfig).2 30 hlevel
    have hkeeps : Json.keeps .outside Json.maxDepth "[1".toList = true := by decide
    rcases (h.2.2 _ supplies_unclosed).unparsed _ rfl with hrefuses | ⟨hn, -⟩
    · exact hrefuses
    · cases hkeeps.symm.trans hn
  · have h := (call_with_document (holding empty) hwords hconfig).2 30 hlevel
    exact (h.2.2 _ supplies_empty).run (.record []) rfl
      ⟨trivial, trivial, trivial, nofun, nofun⟩ ⟨rfl, .inl rfl, .inl rfl, nofun, nofun⟩
  · have h := (call_with_document (holding scrambled) hwords hconfig).2 30 hlevel
    obtain ⟨failure, -, hcall⟩ := (h.2.1 (by decide) (by decide)).2 scrambled rfl fun s hs => by
      cases decodeUtf8_scrambled.symm.trans (Text.decodeUtf8_eq_ok_iff.mpr hs)
    exact ⟨failure, hcall⟩

end Handed

end CommandLine

end NodeScript
