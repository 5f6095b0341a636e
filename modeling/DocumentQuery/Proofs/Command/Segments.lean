import DocumentQuery.Proofs.Command.Inputs
import DocumentQuery.Proofs.Query.Answers
import DocumentQuery.Proofs.Query.Specimens

/-!
# What the segments of a path tell about its answers

Showing the segments of a path says no to every path that is without a root or malformed,
and these find nothing in any document. The paths that find nothing although it says yes
are those that ask an array for a field.
-/

namespace DocumentQuery

namespace Command

variable {rooting : Rooting} {path : String} {inputs : List NamedInput}

theorem result_showSegments_iff :
    (showSegments rooting path).result = .ok true ↔
      Plan.ofText rooting path ≠ .unrooted ∧
        ∀ walk, Plan.ofText rooting path = .navigate walk → walk.hasMalformed = false := by
  rw [result_showSegments, Except.ok.injEq]
  cases Plan.ofText rooting path <;> simp

/-- Of the plans that are shown with yes, only those that ask an array for a field are not
satisfiable. -/
theorem satisfiable_iff :
    (Plan.ofText rooting path).Satisfiable ↔
      (showSegments rooting path).result = .ok true ∧
        ∀ walk, Plan.ofText rooting path = .navigate walk → ¬ walk.AsksArrayForField := by
  rw [result_showSegments_iff]
  cases Plan.ofText rooting path <;> simp [Plan.Satisfiable]

theorem get_eq_none_of_not_satisfiable (h : ¬ (Plan.ofText rooting path).Satisfiable)
    (input : Input) : input.get rooting path = none := by
  rw [Input.get, Option.bind_eq_none_iff]
  intro document _
  exact Plan.execute_eq_none h document

theorem answerGet_of_absent (h : ∀ named ∈ inputs, named.input.get rooting path = none)
    (layout : Layout) : (answerGet rooting inputs path layout).result = .ok false ∧
      (answerGet rooting inputs path layout).output = "" := by
  have hfound : foundValues rooting inputs path = [] := by
    rw [foundValues, List.filterMap_eq_nil_iff]
    intro named hnamed
    rw [h named hnamed, Option.map_none]
  unfold answerGet
  split
  · next named =>
    rw [h named (List.mem_singleton_self named)]
    exact ⟨rfl, rfl⟩
  · rw [hfound]
    exact ⟨rfl, rfl⟩

theorem answer_get_of_absent (h : ∀ input : Input, input.get rooting path = none)
    (inputs : List NamedInput) (layout : Layout) :
    ((Question.get path layout).answer rooting inputs).result = .ok false ∧
      ((Question.get path layout).answer rooting inputs).output = "" := by
  unfold Question.answer
  split
  · exact ⟨rfl, rfl⟩
  · exact answerGet_of_absent (fun named _ => h named.input) layout

theorem answer_finds_of_absent (h : ∀ input : Input, input.get rooting path = none)
    (inputs : List NamedInput) :
    ((Question.finds path).answer rooting inputs).result = .ok false := by
  unfold Question.answer
  split
  · rfl
  · next hne =>
    obtain ⟨named, rest, rfl⟩ := List.exists_cons_of_ne_nil (by simpa using hne)
    dsimp only
    rw [answerFinds_eq]
    simp [Input.finds_eq_isSome, h named.input]

section Runs

variable (verbosity : Verbosity) (tree : FileTree) (standardInput : ByteArray)

theorem exitCode_run_ask_of_no {question : Question}
    (h : ∀ inputs, (question.answer rooting inputs).result = .ok false) (sources : Sources) :
    Run.exitCode (Invocation.run ⟨.ask question sources, rooting, verbosity⟩ tree
      standardInput) = 1 := by
  rw [Run.exitCode_eq_one_iff]
  change (sources.load tree standardInput >>= _).result ≠ _
  rw [Run.result_bind]
  intro hyes
  obtain ⟨inputs, -, hanswer⟩ := bind_eq_ok_iff.mp hyes
  rw [h inputs] at hanswer
  contradiction

theorem output_run_ask_of_empty {question : Question}
    (h : ∀ inputs, (question.answer rooting inputs).output = "") (sources : Sources) :
    Run.output (Invocation.run ⟨.ask question sources, rooting, verbosity⟩ tree
      standardInput) = "" := by
  change (sources.load tree standardInput >>= _).output = _
  cases hload : (sources.load tree standardInput).result with
  | error failure => rw [Run.bind_of_error hload, output_load]
  | ok inputs => rw [Run.bind_of_ok hload, output_load, h, String.append_empty]

theorem exitCode_run_segments :
    Run.exitCode (Invocation.run ⟨.segments path, rooting, verbosity⟩ tree standardInput) =
      (showSegments rooting path).exitCode := rfl

end Runs

/-- There is a document in which a path finds something exactly if its plan is the root, a
search, or the walk of a path that is not malformed and does not ask an array for a field.
So a path whose segments are shown with exit code 1 is absent in every input, and every run
that gets it or asks whether it is there ends with exit code 1. Of the paths whose segments
are shown with exit code 0, those that ask an array for a field are absent in every
document, and no others. -/
theorem exists_evaluate_iff_satisfiable (rooting : Rooting) (path : String) :
    ((∃ document : Json, document.Ordered ∧ (document.evaluate rooting path).isSome = true) ↔
      (Plan.ofText rooting path).Satisfiable) ∧
    (∀ verbosity tree standardInput,
      (Invocation.run ⟨.segments path, rooting, verbosity⟩ tree standardInput).exitCode = 1 →
        (∀ input : Input, input.get rooting path = none ∧ input.finds rooting path = false) ∧
        ∀ sources verbosity tree standardInput,
          (∀ layout,
            (Invocation.run ⟨.ask (.get path layout) sources, rooting, verbosity⟩ tree
              standardInput).exitCode = 1 ∧
            (Invocation.run ⟨.ask (.get path layout) sources, rooting, verbosity⟩ tree
              standardInput).output = "") ∧
          (Invocation.run ⟨.ask (.finds path) sources, rooting, verbosity⟩ tree
            standardInput).exitCode = 1) ∧
    ∀ verbosity tree standardInput,
      (Invocation.run ⟨.segments path, rooting, verbosity⟩ tree standardInput).exitCode = 0 →
        ((∀ document : Json, document.Ordered → document.evaluate rooting path = none) ↔
          ∃ walk, Plan.ofText rooting path = .navigate walk ∧ walk.AsksArrayForField) := by
  have hfound : (∃ document : Json, document.Ordered ∧
      (document.evaluate rooting path).isSome = true) ↔ (Plan.ofText rooting path).Satisfiable :=
    Plan.exists_isSome_execute_iff
  refine ⟨hfound, ?_, ?_⟩
  · intro verbosity tree standardInput hexit
    rw [exitCode_run_segments, Run.exitCode_eq_one_iff] at hexit
    have hno : ¬ (Plan.ofText rooting path).Satisfiable := by
      intro hs
      exact hexit (satisfiable_iff.mp hs).1
    have habsent := get_eq_none_of_not_satisfiable hno
    constructor
    · intro input
      exact ⟨habsent input, by rw [Input.finds_eq_isSome, habsent, Option.isSome_none]⟩
    · intro sources verbosity tree standardInput
      refine ⟨fun layout => ⟨?_, ?_⟩, ?_⟩
      · apply exitCode_run_ask_of_no
        intro inputs
        exact (answer_get_of_absent habsent inputs layout).1
      · apply output_run_ask_of_empty
        intro inputs
        exact (answer_get_of_absent habsent inputs layout).2
      · apply exitCode_run_ask_of_no
        exact answer_finds_of_absent habsent
  · intro verbosity tree standardInput hexit
    rw [exitCode_run_segments, Run.exitCode_eq_zero_iff] at hexit
    have hnone : (∀ document : Json, document.Ordered →
        document.evaluate rooting path = none) ↔ ¬ (Plan.ofText rooting path).Satisfiable := by
      rw [← hfound]
      simp
    rw [hnone, satisfiable_iff]
    simp [hexit]

/-- A negative index is refused, and a field behind a wildcard is shown with yes although no
document has it. -/
theorem exists_evaluate_iff_negativeIndex :
    (Invocation.run ⟨.segments "ids[-1]", .implied, .normal⟩ ⟨.directory [], []⟩
        .empty).exitCode = 1 ∧
      (Input.text "[]").get .implied "ids[-1]" = none ∧
      (Invocation.run ⟨.segments "$[*].id", .written, .normal⟩ ⟨.directory [], []⟩
        .empty).exitCode = 0 ∧
      ∀ document : Json, document.Ordered → document.evaluate .written "$[*].id" = none := by
  obtain ⟨-, habsent, -⟩ := exists_evaluate_iff_satisfiable .implied "ids[-1]"
  obtain ⟨-, -, hunfound⟩ := exists_evaluate_iff_satisfiable .written "$[*].id"
  have hnegative : Plan.ofText .implied "ids[-1]" =
      .navigate ⟨[.field "ids", .malformed "-1"]⟩ := by decide +kernel
  have hplan : Plan.ofText .written "$[*].id" = .navigate ⟨[.wildcard, .field "id"]⟩ := by
    decide +kernel
  have hasks : Path.AsksArrayForField ⟨[.wildcard, .field "id"]⟩ := ⟨"id", List.infix_refl _⟩
  have hone : (Invocation.run ⟨.segments "ids[-1]", .implied, .normal⟩ ⟨.directory [], []⟩
      .empty).exitCode = 1 := by
    rw [exitCode_run_segments, Run.exitCode_eq_one_iff, result_showSegments, hnegative]
    decide
  have hzero : (Invocation.run ⟨.segments "$[*].id", .written, .normal⟩ ⟨.directory [], []⟩
      .empty).exitCode = 0 := by
    rw [exitCode_run_segments, Run.exitCode_eq_zero_iff, result_showSegments, hplan]
    rfl
  refine ⟨hone, ?_, hzero, ?_⟩
  · exact ((habsent .normal ⟨.directory [], []⟩ .empty hone).1 _).1
  · exact (hunfound .normal ⟨.directory [], []⟩ .empty hzero).mpr ⟨_, hplan, hasks⟩

end Command

end DocumentQuery
