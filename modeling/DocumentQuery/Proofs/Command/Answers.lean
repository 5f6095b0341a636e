import DocumentQuery.Proofs.Command.Inputs
import DocumentQuery.Proofs.Json.Entries
import DocumentQuery.Proofs.Query.Answers

/-!
# Four questions about the same inputs

Whatever inputs are loaded, the four questions tell the same about where a path finds
something. Inputs have different names, so an object of what they hold has an entry for
each input in which the path finds a value.
-/

namespace DocumentQuery
namespace Command

section Inputs

variable {rooting : Rooting} {inputs : List NamedInput} {path : String}

theorem all_finds_iff : (inputs.all fun named => named.input.finds rooting path) = true ↔
    ∀ named ∈ inputs, (named.input.get rooting path).isSome = true := by
  simp only [List.all_eq_true, Input.finds_eq_isSome]

theorem foundValues_eq_nil_iff : foundValues rooting inputs path = [] ↔
    ¬ ∃ named ∈ inputs, (named.input.get rooting path).isSome = true := by
  simp [foundValues]

theorem nodup_keys_foundValues (h : (inputs.map NamedInput.name).Nodup) :
    ((foundValues rooting inputs path).map Prod.fst).Nodup := by
  refine (map_filterMap_sublist ?_).nodup h
  intro named entry hentry
  obtain ⟨value, -, rfl⟩ := Option.map_eq_some_iff.mp hentry
  rfl

theorem exists_eq_singleton (hne : inputs ≠ []) (hfew : ¬ 1 < inputs.length) :
    ∃ named, inputs = [named] := by
  have hpos := List.length_pos_iff.mpr hne
  apply List.length_eq_one_iff.mp
  omega

theorem result_answerGet_iff (hne : inputs ≠ []) (layout : Layout) :
    (answerGet rooting inputs path layout).result = .ok true ↔
      ∃ named ∈ inputs, (named.input.get rooting path).isSome = true := by
  by_cases hseveral : 1 < inputs.length
  · rw [answerGet_of_several hseveral]
    by_cases hnone : foundValues rooting inputs path = []
    · rw [if_pos hnone]
      simpa using foundValues_eq_nil_iff.mp hnone
    · rw [if_neg hnone]
      simpa using not_not.mp (hnone ∘ foundValues_eq_nil_iff.mpr)
  · obtain ⟨named, rfl⟩ := exists_eq_singleton hne hseveral
    rw [answerGet_singleton]
    cases hvalue : named.input.get rooting path <;> simp [hvalue]

theorem report_of_several (h : 1 < inputs.length) (named : NamedInput) (text : String) :
    named.report (1 < inputs.length) text = line (named.name ++ ": " ++ text) := by
  simp [NamedInput.report, h]

end Inputs

def Sources.ask (sources : Sources) (rooting : Rooting) (verbosity : Verbosity) (tree : FileTree)
    (standardInput : ByteArray) (question : Question) : Outcome :=
  Invocation.run ⟨.ask question sources, rooting, verbosity⟩ tree standardInput

section Runs

variable {sources : Sources} {tree : FileTree} {standardInput : ByteArray}
  {inputs : List NamedInput}

theorem result_ask (hload : (sources.load tree standardInput).result = .ok inputs)
    (rooting : Rooting) (verbosity : Verbosity) (question : Question) :
    (sources.ask rooting verbosity tree standardInput question).result =
      (question.answer rooting inputs).result := by
  change (sources.load tree standardInput >>= _).result = _
  rw [Run.bind_of_ok hload]

theorem output_ask (hload : (sources.load tree standardInput).result = .ok inputs)
    (rooting : Rooting) (verbosity : Verbosity) (question : Question) :
    (sources.ask rooting verbosity tree standardInput question).output =
      (question.answer rooting inputs).output := by
  change (sources.load tree standardInput >>= _).output = _
  rw [Run.bind_of_ok hload, output_load, String.empty_append]

theorem exitCode_ask_eq_zero_iff (hload : (sources.load tree standardInput).result = .ok inputs)
    (rooting : Rooting) (verbosity : Verbosity) (question : Question) :
    (sources.ask rooting verbosity tree standardInput question).exitCode = 0 ↔
      (question.answer rooting inputs).result = .ok true := by
  rw [Run.exitCode_eq_zero_iff, result_ask hload]

theorem answer_of_ne_nil (hne : inputs ≠ []) (rooting : Rooting) (question : Question) :
    question.answer rooting inputs =
      match question with
      | .get path layout => answerGet rooting inputs path layout
      | .finds path => answerFinds rooting (1 < inputs.length) path inputs
      | .size path =>
        answerEach (1 < inputs.length) (fun input => (input.size rooting path).repr) inputs
      | .kind path =>
        answerEach (1 < inputs.length) (fun input => (input.kind rooting path).name) inputs :=
  if_neg (by simpa using hne)

theorem exitCode_ask_finds_iff (hload : (sources.load tree standardInput).result = .ok inputs)
    (hne : inputs ≠ []) (rooting : Rooting) (verbosity : Verbosity) (path : String) :
    (sources.ask rooting verbosity tree standardInput (.finds path)).exitCode = 0 ↔
      ∀ named ∈ inputs, (named.input.get rooting path).isSome = true := by
  rw [exitCode_ask_eq_zero_iff hload, answer_of_ne_nil hne]
  dsimp only
  rw [answerFinds_eq, Except.ok.injEq, all_finds_iff]

theorem exitCode_ask_get_iff (hload : (sources.load tree standardInput).result = .ok inputs)
    (hne : inputs ≠ []) (rooting : Rooting) (verbosity : Verbosity) (path : String)
    (layout : Layout) :
    (sources.ask rooting verbosity tree standardInput (.get path layout)).exitCode = 0 ↔
      ∃ named ∈ inputs, (named.input.get rooting path).isSome = true := by
  rw [exitCode_ask_eq_zero_iff hload, answer_of_ne_nil hne]
  exact result_answerGet_iff hne layout

theorem output_ask_finds (hload : (sources.load tree standardInput).result = .ok inputs)
    (hseveral : 1 < inputs.length) (rooting : Rooting) (verbosity : Verbosity) (path : String) :
    (sources.ask rooting verbosity tree standardInput (.finds path)).output =
      String.join (inputs.map fun named => line (named.name ++ ": " ++
        if (named.input.get rooting path).isSome then "true" else "false")) := by
  rw [output_ask hload, answer_of_ne_nil (List.ne_nil_of_length_pos (by omega))]
  dsimp only
  rw [answerFinds_eq, if_pos (decide_eq_true hseveral)]
  simp only [report_of_several hseveral, Input.finds_eq_isSome]

theorem exists_entries_of_ask_get (hload : (sources.load tree standardInput).result = .ok inputs)
    (hseveral : 1 < inputs.length) {rooting : Rooting} {verbosity : Verbosity} {path : String}
    {layout : Layout}
    (hexit : (sources.ask rooting verbosity tree standardInput (.get path layout)).exitCode = 0) :
    ∃ entries : Entries Json, entries.Sorted ∧
      entries.Perm (foundValues rooting inputs path) ∧
      (sources.ask rooting verbosity tree standardInput (.get path layout)).output =
        layout.print (.object entries) := by
  have hne : inputs ≠ [] := List.ne_nil_of_length_pos (by omega)
  have hfound : foundValues rooting inputs path ≠ [] := by
    intro hnone
    exact foundValues_eq_nil_iff.mp hnone
      ((exitCode_ask_get_iff hload hne rooting verbosity path layout).mp hexit)
  refine ⟨Entries.ofPairs (foundValues rooting inputs path), Entries.sorted_ofPairs _,
    Entries.perm_ofPairs (nodup_keys_foundValues (nodup_names_of_load hload)), ?_⟩
  rw [output_ask hload, answer_of_ne_nil hne]
  dsimp only
  rw [answerGet_of_several hseveral, if_neg hfound]

theorem output_ask_size (hload : (sources.load tree standardInput).result = .ok inputs)
    (hne : inputs ≠ []) (rooting : Rooting) (verbosity : Verbosity) (path : Option String) :
    (sources.ask rooting verbosity tree standardInput (.size path)).output =
      String.join (inputs.map fun named => named.report (1 < inputs.length)
        (named.input.size rooting path).repr) := by
  rw [output_ask hload, answer_of_ne_nil hne]
  dsimp only
  rw [answerEach_eq]

theorem output_ask_kind (hload : (sources.load tree standardInput).result = .ok inputs)
    (hne : inputs ≠ []) (rooting : Rooting) (verbosity : Verbosity) (path : Option String) :
    (sources.ask rooting verbosity tree standardInput (.kind path)).output =
      String.join (inputs.map fun named => named.report (1 < inputs.length)
        (named.input.kind rooting path).name) := by
  rw [output_ask hload, answer_of_ne_nil hne]
  dsimp only
  rw [answerEach_eq]

theorem output_ask_get_singleton {named : NamedInput}
    (hload : (sources.load tree standardInput).result = .ok [named]) (rooting : Rooting)
    (verbosity : Verbosity) (path : String) (layout : Layout) :
    (sources.ask rooting verbosity tree standardInput (.get path layout)).output =
      match named.input.get rooting path with
      | some value => layout.print value
      | none => "" := by
  rw [output_ask hload, answer_of_ne_nil (List.cons_ne_nil _ _)]
  dsimp only
  rw [answerGet_singleton]
  cases named.input.get rooting path <;> rfl

theorem exitCode_ask_of_empty (hload : (sources.load tree standardInput).result = .ok inputs)
    (hne : inputs ≠ []) (rooting : Rooting) (verbosity : Verbosity) :
    (sources.ask rooting verbosity tree standardInput (.finds "")).exitCode = 1 ∧
      ∀ layout,
        (sources.ask rooting verbosity tree standardInput (.get "" layout)).exitCode = 1 := by
  have hnothing : ∀ named : NamedInput, ¬ (named.input.get rooting "").isSome = true := by
    intro named
    rw [Input.get_empty, Option.isSome_none]
    exact Bool.false_ne_true
  simp only [Run.exitCode_eq_one_iff, ne_eq, ← Run.exitCode_eq_zero_iff]
  constructor
  · intro hzero
    obtain ⟨named, hnamed⟩ := List.exists_mem_of_ne_nil inputs hne
    exact hnothing named ((exitCode_ask_finds_iff hload hne rooting verbosity "").mp hzero named
      hnamed)
  · intro layout hzero
    obtain ⟨named, -, hthere⟩ :=
      (exitCode_ask_get_iff hload hne rooting verbosity "" layout).mp hzero
    exact hnothing named hthere

/-- The four questions agree on all inputs that can be loaded. A path is there if it finds
something in every input, and a value is shown if it finds something in some input. Several
inputs are told apart by their names: each has its line, and the object that is shown has an
entry for each input in which the path finds a value. What the path does not find has no size
and an unknown kind. The value of a single input is shown as it is. The empty path is never
there, while size and kind take it, or none, for the whole document. -/
theorem questions_agree (hload : (sources.load tree standardInput).result = .ok inputs)
    (hne : inputs ≠ []) (rooting : Rooting) (verbosity : Verbosity) (path : String) :
    ((sources.ask rooting verbosity tree standardInput (.finds path)).exitCode = 0 ↔
      ∀ named ∈ inputs, (named.input.get rooting path).isSome = true) ∧
    (∀ layout,
      ((sources.ask rooting verbosity tree standardInput (.get path layout)).exitCode = 0 ↔
        ∃ named ∈ inputs, (named.input.get rooting path).isSome = true)) ∧
    (1 < inputs.length →
      (sources.ask rooting verbosity tree standardInput (.finds path)).output =
        String.join (inputs.map fun named => line (named.name ++ ": " ++
          if (named.input.get rooting path).isSome then "true" else "false")) ∧
      (inputs.map NamedInput.name).Nodup ∧
      (∀ layout,
        (sources.ask rooting verbosity tree standardInput (.get path layout)).exitCode = 0 →
          ∃ entries : Entries Json, entries.Sorted ∧
            entries.Perm (inputs.filterMap fun named =>
              (named.input.get rooting path).map (named.name, ·)) ∧
            (sources.ask rooting verbosity tree standardInput (.get path layout)).output =
              layout.print (.object entries)) ∧
      (path ≠ "" →
        (sources.ask rooting verbosity tree standardInput (.kind (some path))).output =
          String.join (inputs.map fun named => line (named.name ++ ": " ++
            (named.input.kind rooting (some path)).name)) ∧
        (sources.ask rooting verbosity tree standardInput (.size (some path))).output =
          String.join (inputs.map fun named => line (named.name ++ ": " ++
            (named.input.size rooting (some path)).repr)) ∧
        ∀ named ∈ inputs,
          ((named.input.kind rooting (some path)).name = "unknown" ↔
            (named.input.get rooting path).isSome = false) ∧
          ((named.input.get rooting path).isSome = false →
            named.input.size rooting (some path) = 0))) ∧
    (∀ named layout, inputs = [named] →
      (sources.ask rooting verbosity tree standardInput (.get path layout)).output =
        match named.input.get rooting path with
        | some value => layout.print value
        | none => "") ∧
    (path = "" →
      (sources.ask rooting verbosity tree standardInput (.finds path)).exitCode = 1 ∧
      ∀ layout,
        (sources.ask rooting verbosity tree standardInput (.get path layout)).exitCode = 1) ∧
    ∀ whole : Option String, whole.getD "" = "" →
      (sources.ask rooting verbosity tree standardInput (.size whole)).output =
        String.join (inputs.map fun named => named.report (1 < inputs.length)
          (Json.size named.input.document?).repr) ∧
      (sources.ask rooting verbosity tree standardInput (.kind whole)).output =
        String.join (inputs.map fun named => named.report (1 < inputs.length)
          (Kind.of named.input.document?).name) := by
  refine ⟨exitCode_ask_finds_iff hload hne rooting verbosity path,
    exitCode_ask_get_iff hload hne rooting verbosity path, ?_, ?_, ?_, ?_⟩
  · intro hseveral
    refine ⟨output_ask_finds hload hseveral rooting verbosity path, nodup_names_of_load hload,
      ?_, ?_⟩
    · intro layout hexit
      exact exists_entries_of_ask_get hload hseveral hexit
    · intro hpath
      rw [output_ask_kind hload hne, output_ask_size hload hne]
      simp only [report_of_several hseveral, true_and]
      intro named _
      rw [Kind.name_eq_unknown_iff, Input.kind_eq rooting named.input hpath,
        Kind.of_eq_unknown_iff, Input.size_eq rooting named.input hpath, Option.isSome_eq_false_iff,
        Option.isNone_iff_eq_none]
      refine ⟨Iff.rfl, ?_⟩
      intro hnone
      rw [hnone]
      rfl
  · rintro named layout rfl
    exact output_ask_get_singleton hload rooting verbosity path layout
  · rintro rfl
    exact exitCode_ask_of_empty hload hne rooting verbosity
  · intro whole hwhole
    rw [output_ask_size hload hne, output_ask_kind hload hne]
    simp only [Input.size_whole rooting _ hwhole, Input.kind_whole rooting _ hwhole, true_and]

def twoDocuments : Sources where
  files := [⟨"books/a.json"⟩, ⟨"books/c.json"⟩]
  format := some .json

theorem resolve_twoDocuments :
    twoDocuments.resolver.resolve Resolver.shelf twoDocuments.files = .ok twoDocuments.files := by
  have hfiles : ∀ file ∈ twoDocuments.files, Resolver.shelf.isFile file = true := by
    simp only [twoDocuments, List.forall_mem_cons]
    exact ⟨Resolver.isFile_first, FileTree.isFile_iff.mpr ⟨_, Resolver.lookup_third⟩, by simp⟩
  have hascending : FilePath.Ascending twoDocuments.files := by
    refine List.pairwise_pair.mpr ?_
    decide +kernel
  exact Resolver.resolve_eq_self rfl hascending hfiles

theorem load_twoDocuments : (twoDocuments.load Resolver.shelf .empty).result =
    .ok [⟨"books/a.json", .value (.array [.null])⟩, ⟨"books/c.json", .value (.array [])⟩] := by
  have hfirst : twoDocuments.reader.read Resolver.shelf ⟨"books/a.json"⟩ =
      .ok ⟨some ⟨"books/a.json"⟩, .json, .array [.null]⟩ := by
    rw [Reader.read_of_lookup Resolver.lookup_first]
    rfl
  have hthird : twoDocuments.reader.read Resolver.shelf ⟨"books/c.json"⟩ =
      .ok ⟨some ⟨"books/c.json"⟩, .json, .array []⟩ := by
    rw [Reader.read_of_lookup Resolver.lookup_third]
    rfl
  refine (load_eq_ok_iff Resolver.wellFormed_shelf rfl (by decide) resolve_twoDocuments
    (by decide)).mpr ⟨by decide +kernel, ?_⟩
  change [_, _].filterMap _ = _
  simp [inputOf?, hfirst, hthird, NamedInput.ofDocument]
  decide

theorem questions_agree_twoDocuments :
    (twoDocuments.load Resolver.shelf .empty).result =
        .ok [⟨"books/a.json", .value (.array [.null])⟩, ⟨"books/c.json", .value (.array [])⟩] ∧
      (twoDocuments.ask .written .normal Resolver.shelf .empty (.finds "$[0]")).output =
        "books/a.json: true\nbooks/c.json: false\n" ∧
      (twoDocuments.ask .written .normal Resolver.shelf .empty (.kind (some "$[0]"))).output =
        "books/a.json: null\nbooks/c.json: unknown\n" ∧
      (twoDocuments.ask .written .normal Resolver.shelf .empty (.get "$[0]" {})).exitCode = 0 ∧
      (twoDocuments.ask .written .normal Resolver.shelf .empty (.get "$[0]" {})).output =
        "\x7b\"books/a.json\":null\x7d\n" := by
  obtain ⟨-, hget, hseveral, -⟩ := questions_agree load_twoDocuments (by simp) .written .normal
    "$[0]"
  obtain ⟨hfinds, -, hentries, hnonempty⟩ := hseveral (by simp)
  obtain ⟨hkind, -⟩ := hnonempty (by decide)
  have hindex : Plan.ofText .written "$[0]" = .navigate ⟨[.index 0]⟩ := by decide +kernel
  have hnull : (Input.value (.array [.null])).get .written "$[0]" = some .null := by
    rw [Input.get_of_plan _ _ hindex rfl]
    rfl
  have habsent : (Input.value (.array [])).get .written "$[0]" = none := by
    rw [Input.get_of_plan _ _ hindex rfl]
    rfl
  have hexit := (hget {}).mpr ⟨_, List.mem_cons_self, by rw [hnull]; rfl⟩
  obtain ⟨entries, -, hperm, hprinted⟩ := hentries {} hexit
  have hfound : ([⟨"books/a.json", .value (.array [.null])⟩, ⟨"books/c.json", .value (.array [])⟩] :
      List NamedInput).filterMap (fun named =>
        (named.input.get .written "$[0]").map (named.name, ·)) = [("books/a.json", .null)] := by
    simp [hnull, habsent]
  rw [hfound, List.perm_singleton] at hperm
  refine ⟨load_twoDocuments, ?_, ?_, hexit, ?_⟩
  · rw [hfinds]
    simp only [List.map_cons, hnull, habsent]
    rfl
  · rw [hkind]
    simp only [List.map_cons, Input.kind_eq _ _ (show "$[0]" ≠ "" by decide), hnull, habsent]
    rfl
  · rw [hprinted, hperm]
    rfl

end Runs

end Command
end DocumentQuery
