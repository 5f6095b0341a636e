import DocumentQuery.Proofs.Command.Answers
import DocumentQuery.Proofs.Source.Answers

/-!
# Where a text comes from

A JSON text can be given to a run as it is, on the standard input or in a file. Only the
notices tell which of them it was.
-/

namespace DocumentQuery
namespace Command

/-- The ways to give one JSON text to a run. As an input it may be of any size. A stream and a
file have to fit the limit, and nothing may call them YAML: neither the sources nor, without
a format, the extension of the file. -/
inductive Sources.Gives (text : String) (sources : Sources) (tree : FileTree)
    (standardInput : ByteArray) : Prop
  | data (hdata : sources.data = some text)
  | stream (hdata : sources.data = none) (hfiles : sources.files = [])
      (hinput : standardInput = text.toUTF8)
      (hformat : sources.format = none ∨ sources.format = some .json)
      (hfits : ∀ limit, sources.reader.limit = some limit → text.toUTF8.size ≤ limit)
  | file (path : FilePath) (hdata : sources.data = none) (hfiles : sources.files = [path])
      (hexclude : sources.exclude = []) (hlookup : tree.lookup path = .ok (.file text.toUTF8))
      (hformat : sources.format = some .json ∨ sources.format = none ∧
        ∀ extension, path.extension? = some extension →
          Text.lowerCase extension ≠ "yaml" ∧ Text.lowerCase extension ≠ "yml")
      (hfits : ∀ limit, sources.reader.limit = some limit → text.toUTF8.size ≤ limit)

section Single

variable {sources : Sources} {tree : FileTree} {standardInput : ByteArray} {text : String}
  {value : Json}

theorem load_of_data (h : sources.data = some text) (tree : FileTree)
    (standardInput : ByteArray) :
    (sources.load tree standardInput).result = .ok [⟨"--data", .text text⟩] := by
  rw [Sources.load, h]
  rfl

theorem load_of_stream (hdata : sources.data = none) (hfiles : sources.files = [])
    {document : Document} (hread : sources.reader.readStream standardInput = .ok document) :
    (sources.load tree standardInput).result = .ok [.ofDocument document] := by
  rw [Sources.load, hdata, hfiles]
  dsimp only
  rw [if_pos List.isEmpty_nil, hread]
  rfl

theorem load_of_file {path : FilePath} (hdata : sources.data = none)
    (hfiles : sources.files = [path]) (hexclude : sources.exclude = [])
    (hfile : tree.isFile path = true) {document : Document}
    (hread : sources.reader.read tree path = .ok document) :
    (sources.load tree standardInput).result = .ok [.ofDocument document] := by
  have hresolved : sources.resolver.resolve tree sources.files = .ok [path] := by
    rw [hfiles]
    exact Resolver.resolve_eq_self hexclude (List.pairwise_singleton _ _)
      (List.forall_mem_singleton.mpr hfile)
  rw [load_eq_readFiles hdata (by simp [hfiles]) hresolved, readFiles, hread]
  rfl

theorem ofPath?_eq_none_or_json {path : FilePath}
    (h : ∀ extension, path.extension? = some extension →
      Text.lowerCase extension ≠ "yaml" ∧ Text.lowerCase extension ≠ "yml") :
    Format.ofPath? path = none ∨ Format.ofPath? path = some .json := by
  unfold Format.ofPath?
  cases hextension : path.extension? with
  | none => exact Or.inl rfl
  | some extension =>
    obtain ⟨hyaml, hyml⟩ := h extension hextension
    simp only [Option.map_some, Option.bind_some, Format.ofExtension?, hyaml, hyml, or_self,
      if_false]
    split <;> simp

/-- However a JSON text is given, there is one input, and its document is that of the text. -/
theorem exists_load_of_gives (hvalue : Json.ofText? text = some value)
    (h : Sources.Gives text sources tree standardInput) :
    ∃ named, (sources.load tree standardInput).result = .ok [named] ∧
      named.input.document? = some value := by
  cases h with
  | data hdata => exact ⟨_, load_of_data hdata tree standardInput, hvalue⟩
  | stream hdata hfiles hinput hformat hfits =>
    subst hinput
    have hread : sources.reader.readStream text.toUTF8 = .ok ⟨none, .json, value⟩ := by
      rw [Reader.readStream_of_size_le hfits, Reader.textOfBytes_toUTF8]
      exact Document.ofText_of_ofText? hvalue hformat
    exact ⟨_, load_of_stream hdata hfiles hread, rfl⟩
  | file path hdata hfiles hexclude hlookup hformat hfits =>
    have hnoYaml : (sources.reader.format <|> Format.ofPath? path) = none ∨
        (sources.reader.format <|> Format.ofPath? path) = some .json := by
      unfold Sources.reader
      rcases hformat with hjson | ⟨hnone, hextension⟩
      · exact Or.inr (by simp [hjson])
      · simpa [hnone] using ofPath?_eq_none_or_json hextension
    have hread : sources.reader.read tree path = .ok ⟨some path, .json, value⟩ := by
      rw [Reader.read, hlookup]
      dsimp only
      rw [Reader.readContent_of_size_le hfits, Reader.textOfBytes_toUTF8]
      exact Document.ofText_of_ofText? hvalue hnoYaml
    have hfile : tree.isFile path = true := by
      rw [FileTree.isFile, hlookup]
      rfl
    exact ⟨_, load_of_file hdata hfiles hexclude hfile hread, rfl⟩

theorem answer_singleton {named other : NamedInput}
    (h : named.input.document? = other.input.document?) (rooting : Rooting) (question : Question) :
    (question.answer rooting [named]).result = (question.answer rooting [other]).result ∧
      (question.answer rooting [named]).output = (question.answer rooting [other]).output := by
  have hget : ∀ path, named.input.get rooting path = other.input.get rooting path := by
    intro path
    rw [Input.get, h, Input.get]
  have hsize : ∀ path, named.input.size rooting path = other.input.size rooting path := by
    intro path
    rw [Input.size, h, Input.size]
  have hkind : ∀ path, named.input.kind rooting path = other.input.kind rooting path := by
    intro path
    rw [Input.kind, h, Input.kind]
  rw [answer_of_ne_nil (List.cons_ne_nil _ _), answer_of_ne_nil (List.cons_ne_nil _ _)]
  cases question with
  | get path layout =>
    dsimp only
    rw [answerGet_singleton, answerGet_singleton, hget]
    cases other.input.get rooting path <;> exact ⟨rfl, rfl⟩
  | finds path =>
    dsimp only
    rw [answerFinds_eq, answerFinds_eq]
    simp [Input.finds_eq_isSome, hget]
  | size path =>
    dsimp only
    rw [answerEach_eq, answerEach_eq]
    simp [hsize, NamedInput.report]
  | kind path =>
    dsimp only
    rw [answerEach_eq, answerEach_eq]
    simp [hkind, NamedInput.report]

theorem answer_of_no_document (named : NamedInput) (h : named.input.document? = none)
    (rooting : Rooting) (path : String) (whole : Option String) (layout : Layout) :
    Question.answer rooting [named] (.get path layout) =
        ⟨[.noValue path named.name], "", .ok false⟩ ∧
      Question.answer rooting [named] (.finds path) =
        ⟨[.notFound path named.name], "", .ok false⟩ ∧
      Question.answer rooting [named] (.size whole) = ⟨[], "0\n", .ok true⟩ ∧
      Question.answer rooting [named] (.kind whole) = ⟨[], "unknown\n", .ok true⟩ := by
  obtain ⟨hget, hfinds, hsize, hkind⟩ := Input.answers_of_no_document rooting _ h path whole
  simp only [answer_of_ne_nil (List.cons_ne_nil _ _), answerGet_singleton, answerFinds_eq,
    answerEach_eq, hget]
  refine ⟨trivial, ?_, ?_, ?_⟩
  · simp [hfinds]
  · simp only [List.map_singleton, hsize]
    rfl
  · simp only [List.map_singleton, hkind]
    rfl

end Single

/-- Where a JSON text comes from does not change the answer: given as it is, on the standard
input or in a file, every question about it has the same output and exit code, and the run
does not fail, whatever else is around. A text that is no JSON and is given as it is never
makes a run fail either. No path is then found in it, its size is zero, and its kind is
unknown. -/
theorem answers_of_one_text (text : String) :
    (∀ value, Json.ofText? text = some value →
      ∀ (sources other : Sources) (tree otherTree : FileTree)
        (standardInput otherInput : ByteArray),
        sources.Gives text tree standardInput → other.Gives text otherTree otherInput →
          ∀ (rooting : Rooting) (verbosity otherVerbosity : Verbosity) (question : Question),
            let run := sources.ask rooting verbosity tree standardInput question
            let otherRun := other.ask rooting otherVerbosity otherTree otherInput question
            run.output = otherRun.output ∧ run.exitCode = otherRun.exitCode ∧
              run.failure? = none ∧ otherRun.failure? = none) ∧
    (Json.ofText? text = none →
      ∀ (sources : Sources) (tree : FileTree) (standardInput : ByteArray),
        sources.data = some text → ∀ (rooting : Rooting) (verbosity : Verbosity),
          let ask := sources.ask rooting verbosity tree standardInput
          (∀ question, (ask question).failure? = none) ∧
          ∀ (path : String) (whole : Option String) (layout : Layout),
            ((ask (.get path layout)).exitCode = 1 ∧ (ask (.get path layout)).output = "") ∧
            ((ask (.finds path)).exitCode = 1 ∧ (ask (.finds path)).output = "") ∧
            ((ask (.size whole)).exitCode = 0 ∧ (ask (.size whole)).output = "0\n") ∧
            ((ask (.kind whole)).exitCode = 0 ∧ (ask (.kind whole)).output = "unknown\n")) := by
  constructor
  · intro value hvalue sources other tree otherTree standardInput otherInput hgives hother
      rooting verbosity otherVerbosity question
    obtain ⟨named, hload, hdocument⟩ := exists_load_of_gives hvalue hgives
    obtain ⟨otherNamed, hotherLoad, hotherDocument⟩ := exists_load_of_gives hvalue hother
    obtain ⟨hresult, houtput⟩ :=
      answer_singleton (hdocument.trans hotherDocument.symm) rooting question
    obtain ⟨yes, hyes⟩ := exists_answer question rooting [named]
    have hrun := (result_ask hload rooting verbosity question).trans hyes
    have hotherRun :=
      (result_ask hotherLoad rooting otherVerbosity question).trans (hresult.symm.trans hyes)
    refine ⟨?_, ?_, Run.failure?_of_ok hrun, Run.failure?_of_ok hotherRun⟩
    · rw [output_ask hload, output_ask hotherLoad, houtput]
    · rw [Run.exitCode, hrun, Run.exitCode, hotherRun]
  · intro hnone sources tree standardInput hdata rooting verbosity
    have hload := load_of_data hdata tree standardInput
    constructor
    · intro question
      obtain ⟨yes, hyes⟩ := exists_answer question rooting [⟨"--data", .text text⟩]
      exact Run.failure?_of_ok ((result_ask hload rooting verbosity question).trans hyes)
    · intro path whole layout
      obtain ⟨hget, hfinds, hsize, hkind⟩ :=
        answer_of_no_document ⟨"--data", .text text⟩ hnone rooting path whole layout
      simp only [output_ask hload, Run.exitCode, result_ask hload, hget, hfinds, hsize, hkind,
        and_self]

theorem answers_of_one_text_row :
    let data : Sources := { data := some "[null]" }
    let file : Sources := { files := [⟨"row"⟩] }
    file.Gives "[null]" .loneFile .empty ∧ Sources.Gives "[null]" {} .loneFile "[null]".toUTF8 ∧
      (∀ question, (data.ask .written .normal .loneFile .empty question).output =
        (file.ask .written .quiet .loneFile .empty question).output) ∧
      (∀ question, (data.ask .written .normal .loneFile .empty question).output =
        (Sources.ask {} .written .normal .loneFile "[null]".toUTF8 question).output) ∧
      (Sources.ask { data := some "[null" } .written .normal .loneFile .empty
        (.kind none)).output = "unknown\n" := by
  intro data file
  obtain ⟨hsame, -⟩ := answers_of_one_text "[null]"
  obtain ⟨-, hempty⟩ := answers_of_one_text "[null"
  have hvalue : Json.ofText? "[null]" = some (.array [.null]) := rfl
  have hnone : Json.ofText? "[null" = none := rfl
  have hsize : "[null]".toUTF8.size ≤ 64 * 1024 * 1024 := by decide
  have hdata : data.Gives "[null]" .loneFile .empty := .data rfl
  have hfile : file.Gives "[null]" .loneFile .empty := by
    refine .file ⟨"row"⟩ rfl rfl rfl FileTree.lookup_row (Or.inr ⟨rfl, ?_⟩) ?_
    · intro extension hextension
      have hno : FilePath.extension? ⟨"row"⟩ = none := by decide +kernel
      rw [hno] at hextension
      contradiction
    · intro limit hlimit
      obtain rfl := Option.some.inj hlimit
      exact hsize
  have hstream : Sources.Gives "[null]" {} .loneFile "[null]".toUTF8 := by
    refine .stream rfl rfl rfl (Or.inl rfl) ?_
    intro limit hlimit
    obtain rfl := Option.some.inj hlimit
    exact hsize
  refine ⟨hfile, hstream, ?_, ?_, ?_⟩
  · intro question
    exact (hsame _ hvalue _ _ _ _ _ _ hdata hfile .written .normal .quiet question).1
  · intro question
    exact (hsame _ hvalue _ _ _ _ _ _ hdata hstream .written .normal .normal question).1
  · exact ((hempty hnone _ .loneFile .empty rfl .written .normal).2 "" none {}).2.2.2.2

end Command
end DocumentQuery
