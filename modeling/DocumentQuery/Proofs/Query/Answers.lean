import DocumentQuery.Query.Answers

/-!
# What the questions have in common

A question put to an input is put to its document, and has an empty answer if there is
none. Size and kind describe what a path finds, and the whole document if there is no path
or an empty one, although the empty path finds nothing.
-/

namespace DocumentQuery

namespace Kind

theorem of_eq_unknown_iff {value : Option Json} : Kind.of value = .unknown ↔ value = none := by
  rcases value with _ | (_ | _ | _ | _ | _ | _) <;> simp [Kind.of]

theorem name_eq_unknown_iff {kind : Kind} : kind.name = "unknown" ↔ kind = .unknown := by
  cases kind <;> simp [Kind.name]

theorem ofName?_eq_some_iff {name : String} {kind : Kind} :
    ofName? name = some kind ↔ kind.name = name := by
  constructor
  · intro h
    simpa using List.find?_some h
  · rintro rfl
    cases kind <;> rfl

theorem ofJson?_string (name : String) : ofJson? (.string name) = ofName? name := by
  unfold ofJson?
  split
  case h_8 hother =>
    symm
    rw [Option.eq_none_iff_forall_ne_some]
    intro kind hkind
    obtain rfl := ofName?_eq_some_iff.mp hkind
    cases kind <;> contradiction
  all_goals
    obtain rfl := Json.string.inj (by assumption)
    rfl

end Kind

namespace Input

variable (rooting : Rooting) (input : Input) {path : String}

theorem answers_of_document {document : Json} (h : input.document? = some document)
    (path : String) (whole : Option String) :
    input.get rooting path = document.evaluate rooting path ∧
      input.finds rooting path = document.finds rooting path ∧
      input.size rooting whole = document.sizeAt rooting whole ∧
      input.kind rooting whole = document.kindAt rooting whole := by
  refine ⟨?_, ?_, ?_, ?_⟩
  · rw [get, h, Option.bind_some]
  · rw [finds, h, Option.map_some, Option.getD_some]
  · rw [size, h, Option.map_some, Option.getD_some]
  · rw [kind, h, Option.map_some, Option.getD_some]

theorem answers_of_no_document (h : input.document? = none) (path : String)
    (whole : Option String) :
    input.get rooting path = none ∧ input.finds rooting path = false ∧
      input.size rooting whole = 0 ∧ input.kind rooting whole = .unknown := by
  refine ⟨?_, ?_, ?_, ?_⟩
  · rw [get, h, Option.bind_none]
  · rw [finds, h, Option.map_none, Option.getD_none]
  · rw [size, h, Option.map_none, Option.getD_none]
  · rw [kind, h, Option.map_none, Option.getD_none]

theorem get_of_plan {plan : Plan} {document : Json} (hplan : Plan.ofText rooting path = plan)
    (hdocument : input.document? = some document) :
    input.get rooting path = plan.execute document := by
  rw [get, hdocument, Option.bind_some, Json.evaluate, hplan]

/-- Presence and value are asked of the document one by one, and agree. -/
theorem finds_eq_isSome (path : String) :
    input.finds rooting path = (input.get rooting path).isSome := by
  rw [finds, get]
  cases input.document? <;> rfl

theorem size_eq_size_target (path : Option String) :
    input.size rooting path = Json.size (input.document?.bind (·.target rooting path)) := by
  rw [size]
  cases input.document? <;> rfl

theorem kind_eq_of_target (path : Option String) :
    input.kind rooting path = Kind.of (input.document?.bind (·.target rooting path)) := by
  rw [kind]
  cases input.document? <;> rfl

theorem finds_eq_true_iff :
    input.finds rooting path = true ↔ ∃ value, input.get rooting path = some value := by
  rw [finds_eq_isSome, Option.isSome_iff_exists]

theorem finds_eq_false_iff : input.finds rooting path = false ↔ input.get rooting path = none := by
  rw [finds_eq_isSome, Option.isSome_eq_false_iff, Option.isNone_iff_eq_none]

theorem get_empty : input.get rooting "" = none := by
  unfold get
  cases input.document? <;> rfl

theorem bind_target (h : path ≠ "") :
    input.document?.bind (·.target rooting (some path)) = input.get rooting path := by
  simp [get, Json.target, h]

theorem size_eq (h : path ≠ "") :
    input.size rooting (some path) = Json.size (input.get rooting path) := by
  rw [size_eq_size_target, bind_target rooting input h]

theorem kind_eq (h : path ≠ "") :
    input.kind rooting (some path) = Kind.of (input.get rooting path) := by
  rw [kind_eq_of_target, bind_target rooting input h]

theorem bind_target_whole {path : Option String} (h : path.getD "" = "") :
    input.document?.bind (·.target rooting path) = input.document? := by
  cases path with
  | none => simp [Json.target]
  | some path =>
    obtain rfl : path = "" := h
    simp [Json.target]

theorem size_whole {path : Option String} (h : path.getD "" = "") :
    input.size rooting path = Json.size input.document? := by
  rw [size_eq_size_target, bind_target_whole rooting input h]

theorem kind_whole {path : Option String} (h : path.getD "" = "") :
    input.kind rooting path = Kind.of input.document? := by
  rw [kind_eq_of_target, bind_target_whole rooting input h]

end Input
end DocumentQuery
