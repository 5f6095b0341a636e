import DocumentQuery.Command.Outcome
import DocumentQuery.Proofs.Results

/-!
# What a run prints

A run tells and prints what its steps do, one after the other. The steps that answer a question
or show a path never fail, so if nothing is printed before them, a run that fails has printed
nothing.
-/

namespace DocumentQuery
namespace Command
namespace Run

variable {α β : Type} {first : Run α} {next : α → Run β} {failure : Failure}

theorem bind_of_ok {value : α} (h : first.result = .ok value) :
    first >>= next = ⟨first.notices ++ (next value).notices,
      first.output ++ (next value).output, (next value).result⟩ := by
  change andThen first next = _
  rw [andThen, h]

theorem bind_of_error (h : first.result = .error failure) :
    first >>= next = ⟨first.notices, first.output, .error failure⟩ := by
  change andThen first next = _
  rw [andThen, h]

theorem result_bind (first : Run α) (next : α → Run β) :
    (first >>= next).result = first.result >>= fun value => (next value).result := by
  cases hfirst : first.result with
  | ok value => rw [bind_of_ok hfirst]; rfl
  | error failure => rw [bind_of_error hfirst]; rfl

@[simp] theorem pure_eq (value : α) : (pure value : Run α) = ⟨[], "", .ok value⟩ := rfl

@[simp] theorem map_eq (f : α → β) (first : Run α) :
    f <$> first = ⟨first.notices, first.output, f <$> first.result⟩ := by
  change first >>= (pure ∘ f) = _
  cases hfirst : first.result with
  | ok value =>
    rw [bind_of_ok hfirst, Function.comp_apply, pure_eq, List.append_nil, String.append_empty]
    rfl
  | error failure =>
    rw [bind_of_error hfirst]
    rfl

theorem ofResult_ok_bind (value : α) (next : α → Run β) :
    ofResult (.ok value) >>= next = next value := by
  rw [bind_of_ok rfl, ofResult, List.nil_append, String.empty_append]

instance : LawfulMonad Run := by
  refine LawfulMonad.mk' Run ?_ ?_ ?_
  · intro α run
    rw [map_eq, id_map]
  · intro α β value next
    exact ofResult_ok_bind value next
  · intro α β γ first next last
    cases hfirst : first.result with
    | error failure => rw [bind_of_error hfirst, bind_of_error rfl, bind_of_error hfirst]
    | ok value =>
      rw [bind_of_ok hfirst, bind_of_ok hfirst]
      cases hnext : (next value).result with
      | error failure => rw [bind_of_error rfl, bind_of_error hnext]
      | ok other =>
        rw [bind_of_ok rfl, bind_of_ok hnext]
        simp [String.append_assoc]

@[simp] theorem tell_bind (notice : Notice) (next : Unit → Run β) :
    tell notice >>= next =
      ⟨notice :: (next ()).notices, (next ()).output, (next ()).result⟩ := by
  rw [bind_of_ok rfl, tell, List.singleton_append, String.empty_append]

@[simp] theorem print_bind (text : String) (next : Unit → Run β) :
    print text >>= next =
      ⟨(next ()).notices, text ++ (next ()).output, (next ()).result⟩ := rfl

theorem failure?_eq_some_iff {run : Run α} :
    run.failure? = some failure ↔ run.result = .error failure := by
  unfold failure?
  cases run.result <;> simp

theorem failure?_of_ok {run : Run α} {value : α} (h : run.result = .ok value) :
    run.failure? = none := by
  rw [failure?, h]

/-- A run fails before its last steps, if these never fail, and it has printed what was printed
before them. -/
theorem result_and_output_of_failure (hsure : ∀ value, ∃ answer, (next value).result = .ok answer)
    (h : (first >>= next).result = .error failure) :
    first.result = .error failure ∧ (first >>= next).output = first.output := by
  rw [result_bind] at h
  rcases bind_eq_error_iff.mp h with hfirst | ⟨value, -, hnext⟩
  · exact ⟨hfirst, by rw [bind_of_error hfirst]⟩
  · obtain ⟨answer, hanswer⟩ := hsure value
    rw [hanswer] at hnext
    contradiction

theorem exitCode_eq_zero_iff {run : Run Bool} : run.exitCode = 0 ↔ run.result = .ok true := by
  unfold exitCode
  split <;> simp_all

theorem exitCode_eq_one_iff {run : Run Bool} : run.exitCode = 1 ↔ run.result ≠ .ok true := by
  unfold exitCode
  split <;> simp_all

end Run

section Answers

variable {rooting : Rooting} {several : Bool} {inputs : List NamedInput} {path : String}

theorem answerEach_eq (fact : Input → String) :
    answerEach several fact inputs =
      ⟨[], String.join (inputs.map fun named => named.report several (fact named.input)),
        .ok true⟩ := by
  induction inputs with
  | nil => rfl
  | cons named rest ih =>
    rw [answerEach, Run.print_bind, ih]
    simp

theorem answerFinds_eq :
    answerFinds rooting several path inputs =
      ⟨(inputs.filter fun named => !named.input.finds rooting path).map
          (.notFound path ·.name),
        if several then String.join (inputs.map fun named => named.report several
          (if named.input.finds rooting path then "true" else "false")) else "",
        .ok (inputs.all fun named => named.input.finds rooting path)⟩ := by
  induction inputs with
  | nil => cases several <;> rfl
  | cons named rest ih =>
    simp only [answerFinds, ih]
    cases several <;> cases hfinds : named.input.finds rooting path <;>
      simp [hfinds, -Run.pure_eq]

theorem answerGet_singleton (named : NamedInput) (layout : Layout) :
    answerGet rooting [named] path layout =
      match named.input.get rooting path with
      | some value => ⟨[], layout.print value, .ok true⟩
      | none => ⟨[.noValue path named.name], "", .ok false⟩ := by
  unfold answerGet
  dsimp only
  cases named.input.get rooting path <;> simp

theorem answerGet_of_several (h : 1 < inputs.length) (layout : Layout) :
    answerGet rooting inputs path layout =
      if foundValues rooting inputs path = [] then ⟨[.noMatches], "", .ok false⟩
      else ⟨[], layout.print (.object (Entries.ofPairs (foundValues rooting inputs path))),
        .ok true⟩ := by
  unfold answerGet
  split
  · simp at h
  · cases foundValues rooting inputs path <;> simp

theorem exists_answerGet (rooting : Rooting) (inputs : List NamedInput) (path : String)
    (layout : Layout) : ∃ yes, (answerGet rooting inputs path layout).result = .ok yes := by
  unfold answerGet
  split
  · split <;> exact ⟨_, rfl⟩
  · split <;> exact ⟨_, rfl⟩

theorem exists_answer (question : Question) (rooting : Rooting) (inputs : List NamedInput) :
    ∃ yes, (question.answer rooting inputs).result = .ok yes := by
  unfold Question.answer
  split
  · exact ⟨false, rfl⟩
  · cases question with
    | get path layout => exact exists_answerGet rooting inputs path layout
    | finds path => exact ⟨_, congrArg Run.result answerFinds_eq⟩
    | size path => exact ⟨_, congrArg Run.result (answerEach_eq _)⟩
    | kind path => exact ⟨_, congrArg Run.result (answerEach_eq _)⟩

end Answers

theorem result_printSegments (position : Nat) (segments : List Segment) :
    (printSegments position segments).result = .ok () := by
  induction segments generalizing position with
  | nil => rfl
  | cons segment rest ih =>
    rw [printSegments, Run.print_bind]
    exact ih (position + 1)

theorem result_showSegments (rooting : Rooting) (path : String) :
    (showSegments rooting path).result = .ok (match Plan.ofText rooting path with
      | .unrooted => false
      | .navigate walk => !walk.hasMalformed
      | _ => true) := by
  unfold showSegments
  dsimp only
  rw [Run.print_bind]
  cases Plan.ofText rooting path with
  | navigate walk =>
    dsimp only
    rw [Run.bind_of_ok (result_printSegments 0 walk.segments)]
    rfl
  | _ => rfl

end Command
end DocumentQuery
