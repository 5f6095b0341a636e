import DocumentQuery.Proofs.Command.Answers

/-!
# The shape of an answer

An answer tells its inputs apart by their names or is bare. What decides is how many inputs
are loaded, not how many files are resolved: if all but one of several files are skipped, the
answer is that of a single input. If loading fails there is no answer of either shape.
-/

namespace DocumentQuery
namespace Command

/-- Every answer tells the inputs apart by their names. -/
structure Keyed (ask : Question → Outcome) (rooting : Rooting) (inputs : List NamedInput) :
    Prop where
  get : ∀ path layout, (ask (.get path layout)).exitCode = 0 →
    ∃ entries : Entries Json, entries.Sorted ∧ entries.Perm (foundValues rooting inputs path) ∧
      (ask (.get path layout)).output = layout.print (.object entries)
  finds : ∀ path, (ask (.finds path)).output =
    String.join (inputs.map fun named => line (named.name ++ ": " ++
      if (named.input.get rooting path).isSome then "true" else "false"))
  size : ∀ path, (ask (.size path)).output =
    String.join (inputs.map fun named => line (named.name ++ ": " ++
      (named.input.size rooting path).repr))
  kind : ∀ path, (ask (.kind path)).output =
    String.join (inputs.map fun named => line (named.name ++ ": " ++
      (named.input.kind rooting path).name))

/-- Every answer is about one input, whose name is left out. -/
structure Bare (ask : Question → Outcome) (rooting : Rooting) (input : Input) : Prop where
  get : ∀ path layout value, input.get rooting path = some value →
    (ask (.get path layout)).output = layout.print value
  finds : ∀ path, (ask (.finds path)).output = ""
  size : ∀ path, (ask (.size path)).output = line (input.size rooting path).repr
  kind : ∀ path, (ask (.kind path)).output = line (input.kind rooting path).name

section Shapes

variable {sources : Sources} {tree : FileTree} {standardInput : ByteArray}
  {inputs : List NamedInput}

theorem keyed_of_several (hload : (sources.load tree standardInput).result = .ok inputs)
    (hseveral : 1 < inputs.length) (rooting : Rooting) (verbosity : Verbosity) :
    Keyed (sources.ask rooting verbosity tree standardInput) rooting inputs where
  get path layout hexit := exists_entries_of_ask_get hload hseveral hexit
  finds path := output_ask_finds hload hseveral rooting verbosity path
  size path := by
    rw [output_ask_size hload (List.ne_nil_of_length_pos (by omega))]
    simp only [report_of_several hseveral]
  kind path := by
    rw [output_ask_kind hload (List.ne_nil_of_length_pos (by omega))]
    simp only [report_of_several hseveral]

theorem bare_of_single {named : NamedInput}
    (hload : (sources.load tree standardInput).result = .ok [named]) (rooting : Rooting)
    (verbosity : Verbosity) :
    Bare (sources.ask rooting verbosity tree standardInput) rooting named.input where
  get path layout value hvalue := by
    rw [output_ask_get_singleton hload, hvalue]
  finds path := by
    rw [output_ask hload, answer_of_ne_nil (List.cons_ne_nil _ _)]
    dsimp only
    rw [answerFinds_eq]
    rfl
  size path := by
    rw [output_ask_size hload (List.cons_ne_nil _ _)]
    simp [NamedInput.report]
  kind path := by
    rw [output_ask_kind hload (List.cons_ne_nil _ _)]
    simp [NamedInput.report]

theorem Keyed.output_finds_ne_empty {ask : Question → Outcome} {rooting : Rooting}
    (h : Keyed ask rooting inputs) (hne : inputs ≠ []) (path : String) :
    (ask (.finds path)).output ≠ "" := by
  obtain ⟨named, rest, rfl⟩ := List.exists_cons_of_ne_nil hne
  rw [h.finds, List.map_cons, String.join_cons]
  simp [line]

theorem Bare.not_keyed {ask : Question → Outcome} {rooting : Rooting} {input : Input}
    (h : Bare ask rooting input) (hne : inputs ≠ []) : ¬ Keyed ask rooting inputs := by
  intro hkeyed
  exact hkeyed.output_finds_ne_empty hne "" (h.finds "")

theorem exists_load_of_keyed {rooting : Rooting} {verbosity : Verbosity}
    (h : Keyed (sources.ask rooting verbosity tree standardInput) rooting inputs)
    (hne : inputs ≠ []) : ∃ others, (sources.load tree standardInput).result = .ok others := by
  cases hload : (sources.load tree standardInput).result with
  | ok others => exact ⟨others, rfl⟩
  | error failure =>
    refine absurd ?_ (h.output_finds_ne_empty hne "")
    change (sources.load tree standardInput >>= _).output = _
    rw [Run.bind_of_error hload, output_load]

/-- Several files give answers that tell the inputs apart exactly if two of them can be read and
none has too long a path, at which the run would fail. If only one can be read, the answers are
those about a single input. -/
theorem keyed_iff_several_inputs {files : List FilePath} (hw : tree.WellFormed)
    (hdata : sources.data = none) (hgiven : sources.files ≠ [])
    (hfiles : sources.resolver.resolve tree sources.files = .ok files)
    (hseveral : 1 < files.length)
    (hinputs : files.filterMap (inputOf? sources.reader tree) = inputs) (hne : inputs ≠ [])
    (standardInput : ByteArray) (rooting : Rooting) (verbosity : Verbosity) :
    (Keyed (sources.ask rooting verbosity tree standardInput) rooting inputs ↔
      1 < inputs.length ∧ ∀ file ∈ files, file.byteSize ≤ FileTree.maxPathBytes) ∧
    ∀ named, inputs = [named] → (∀ file ∈ files, file.byteSize ≤ FileTree.maxPathBytes) →
      Bare (sources.ask rooting verbosity tree standardInput) rooting named.input := by
  have hload : (∀ file ∈ files, file.byteSize ≤ FileTree.maxPathBytes) →
      (sources.load tree standardInput).result = .ok inputs := by
    intro hsizes
    exact (load_eq_ok_iff hw hdata hgiven hfiles hseveral).mpr ⟨hsizes, hinputs⟩
  have hbare : ∀ named, inputs = [named] →
      (∀ file ∈ files, file.byteSize ≤ FileTree.maxPathBytes) →
        Bare (sources.ask rooting verbosity tree standardInput) rooting named.input := by
    rintro named rfl hsizes
    exact bare_of_single (hload hsizes) rooting verbosity
  refine ⟨⟨?_, ?_⟩, hbare⟩
  · intro hkeyed
    obtain ⟨others, hothers⟩ := exists_load_of_keyed hkeyed hne
    have hsizes := ((load_eq_ok_iff hw hdata hgiven hfiles hseveral).mp hothers).1
    refine ⟨?_, hsizes⟩
    by_contra hfew
    obtain ⟨named, hnamed⟩ := exists_eq_singleton hne hfew
    exact (hbare named hnamed hsizes).not_keyed hne hkeyed
  · rintro ⟨hmany, hsizes⟩
    exact keyed_of_several (hload hsizes) hmany rooting verbosity

theorem keyed_iff_shelf :
    Bare (shelfSources.ask .written .normal Resolver.shelf .empty) .written
        (.value (.array [.null])) ∧
      (shelfSources.ask .written .normal Resolver.shelf .empty (.get "$[0]" {})).output =
        "null\n" := by
  obtain ⟨-, hbare⟩ := keyed_iff_several_inputs Resolver.wellFormed_shelf rfl (by decide)
    resolve_shelfSources (by decide) filterMap_inputOf?_shelf (by simp) .empty .written .normal
  have hshelf := hbare _ rfl (by decide +kernel)
  refine ⟨hshelf, ?_⟩
  have hindex : Plan.ofText .written "$[0]" = .navigate ⟨[.index 0]⟩ := by decide +kernel
  have hnull : (Input.value (.array [.null])).get .written "$[0]" = some .null := by
    rw [Input.get_of_plan _ _ hindex rfl]
    rfl
  rw [hshelf.get "$[0]" {} .null hnull]
  rfl

/-- That several files are resolved does not decide the shape. -/
theorem not_keyed_of_several_files :
    ¬ ∀ (tree : FileTree) (sources : Sources) (files : List FilePath) (standardInput : ByteArray)
      (inputs : List NamedInput) (rooting : Rooting) (verbosity : Verbosity),
      tree.WellFormed → sources.data = none → sources.files ≠ [] →
        sources.resolver.resolve tree sources.files = .ok files → 1 < files.length →
          (sources.load tree standardInput).result = .ok inputs → inputs ≠ [] →
            Keyed (sources.ask rooting verbosity tree standardInput) rooting inputs := by
  intro h
  have hload : (shelfSources.load Resolver.shelf .empty).result =
      .ok [⟨"books/a.json", .value (.array [.null])⟩] := by
    exact (load_eq_ok_iff Resolver.wellFormed_shelf rfl (by decide) resolve_shelfSources
      (by decide)).mpr ⟨by decide +kernel, filterMap_inputOf?_shelf⟩
  have hkeyed := h Resolver.shelf shelfSources shelfSources.files .empty _ .written .normal
    Resolver.wellFormed_shelf rfl (by decide) resolve_shelfSources (by decide) hload (by simp)
  exact (bare_of_single hload .written .normal).not_keyed (List.cons_ne_nil _ _) hkeyed

end Shapes

end Command
end DocumentQuery
