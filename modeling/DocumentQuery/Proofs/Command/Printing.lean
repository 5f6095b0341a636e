import DocumentQuery.Proofs.Command.Origins
import DocumentQuery.Proofs.Json.Rereading
import DocumentQuery.Proofs.Query.Places
import DocumentQuery.Proofs.Query.Walks

/-!
# What is printed can be asked again

The JSON text of a plain value, on one line or over several, holds that value. So the
output of one run can be given to another one, which finds in it what the first has found.
-/

namespace DocumentQuery

def Input.Ordered (input : Input) : Prop :=
  ∀ document, input.document? = some document → document.Ordered

theorem Input.ordered_text (text : String) : (Input.text text).Ordered := by
  intro document h
  exact Json.ordered_of_decode (Json.ofText?_eq_some_iff.mp h)

theorem Input.ordered_value {document : Json} (h : document.Ordered) :
    (Input.value document).Ordered := by
  intro other hother
  exact Option.some.inj hother ▸ h

theorem Input.Ordered.get {input : Input} (h : input.Ordered) {rooting : Rooting} {path : String}
    {value : Json} (hfound : input.get rooting path = some value) : value.Ordered := by
  obtain ⟨document, hdocument, hvalue⟩ := Option.bind_eq_some_iff.mp hfound
  exact Json.ordered_of_evaluate (h document hdocument) hvalue

namespace Command

/-- Both printed forms are the text of the value in some spacing, and a line break. -/
theorem exists_spacing_of_print (pretty : Bool) (value : Json) :
    ∃ spacing, Layout.print ⟨.json, pretty⟩ value =
      String.ofList (value.chars spacing 0 ++ ['\n']) := by
  cases pretty with
  | false =>
    refine ⟨.tight, ?_⟩
    rw [Json.chars_tight, String.ofList_append]
    rfl
  | true =>
    refine ⟨.indented, ?_⟩
    rw [Json.chars_indented, String.ofList_append]
    rfl

theorem ofText?_print {value : Json} (h : value.Plain Json.maxDepth) (pretty : Bool) :
    Json.ofText? (Layout.print ⟨.json, pretty⟩ value) = some value := by
  have hblanks : ∀ c ∈ ['\n'], Json.isBlank c = true := by simp [Json.isBlank]
  obtain ⟨spacing, htext⟩ := exists_spacing_of_print pretty value
  rw [htext]
  exact Json.ofText?_chars spacing h hblanks

section Runs

variable {sources : Sources} {tree : FileTree} {standardInput : ByteArray}

theorem ordered_of_load {inputs : List NamedInput}
    (h : (sources.load tree standardInput).result = .ok inputs) :
    ∀ named ∈ inputs, named.input.Ordered := by
  rcases load_cases h with ⟨text, rfl⟩ | ⟨document, hread, rfl⟩ | ⟨files, -, rfl⟩
  · exact List.forall_mem_singleton.mpr (Input.ordered_text text)
  · exact List.forall_mem_singleton.mpr
      (Input.ordered_value (Reader.ordered_of_readStream hread))
  · intro named hnamed
    obtain ⟨file, -, hinput⟩ := List.mem_filterMap.mp hnamed
    obtain ⟨document, hread, rfl⟩ := exists_of_inputOf?_eq_some hinput
    exact Input.ordered_value (Reader.ordered_of_read hread)

theorem ask_root_of_print {value : Json} (h : value.Plain Json.maxDepth) {pretty : Bool}
    (hdata : sources.data = some (Layout.print ⟨.json, pretty⟩ value)) (tree : FileTree)
    (standardInput : ByteArray) (rooting : Rooting) (verbosity : Verbosity) :
    (sources.ask rooting verbosity tree standardInput (.get "$" {})).output =
        line value.compact ∧
      (sources.ask rooting verbosity tree standardInput (.get "$" {})).exitCode = 0 := by
  have hfound : (Input.text (Layout.print ⟨.json, pretty⟩ value)).get rooting "$" =
      some value := by
    rw [Input.get, Input.document?, ofText?_print h, Option.bind_some, Json.evaluate_dollar]
  have hload := load_of_data hdata tree standardInput
  have hanswer : Question.answer rooting [⟨"--data", .text (Layout.print ⟨.json, pretty⟩ value)⟩]
      (.get "$" {}) = ⟨[], line value.compact, .ok true⟩ := by
    rw [answer_of_ne_nil (List.cons_ne_nil _ _)]
    dsimp only
    rw [answerGet_singleton, hfound]
    rfl
  rw [output_ask hload, exitCode_ask_eq_zero_iff hload, hanswer]
  exact ⟨rfl, rfl⟩

/-- JSON that is printed can be asked again. For a value without floats that nests at most 127
levels deep, the text that is printed, on one line or over several, holds exactly that value,
and every question about the text is answered as about the value. So if a run shows such a
value of its only input, a run on its output shows the compact line of that value under the
root path. -/
theorem printed_value_is_reread :
    (∀ value : Json, value.Ordered → value.isFloatFree = true → value.depth ≤ 127 →
      ∀ pretty : Bool,
        let text := Layout.print ⟨.json, pretty⟩ value
        (Input.text text).document? = some value ∧
        ∀ (rooting : Rooting) (path : String) (whole : Option String),
          (Input.text text).get rooting path = (Input.value value).get rooting path ∧
          (Input.text text).finds rooting path = (Input.value value).finds rooting path ∧
          (Input.text text).size rooting whole = (Input.value value).size rooting whole ∧
          (Input.text text).kind rooting whole = (Input.value value).kind rooting whole) ∧
    ∀ (sources : Sources) (tree : FileTree) (standardInput : ByteArray) (rooting : Rooting)
      (verbosity : Verbosity) (named : NamedInput) (path : String) (value : Json),
      (sources.load tree standardInput).result = .ok [named] →
        named.input.get rooting path = some value → value.isFloatFree = true →
          value.depth ≤ 127 → ∀ pretty : Bool,
            let shown := sources.ask rooting verbosity tree standardInput
              (.get path ⟨.json, pretty⟩)
            shown.output = Layout.print ⟨.json, pretty⟩ value ∧
            ∀ (again : Sources) (otherTree : FileTree) (otherInput : ByteArray)
              (otherRooting : Rooting) (otherVerbosity : Verbosity),
              again.data = some shown.output →
                let reshown := again.ask otherRooting otherVerbosity otherTree otherInput
                  (.get "$" {})
                reshown.output = line value.compact ∧ reshown.exitCode = 0 := by
  constructor
  · intro value hordered hfree hdepth pretty text
    have htext : (Input.text text).document? = some value :=
      ofText?_print ⟨hordered, hfree, hdepth⟩ pretty
    refine ⟨htext, fun rooting path whole => ?_⟩
    obtain ⟨hget, hfinds, hsize, hkind⟩ := Input.answers_of_document rooting _ htext path whole
    exact ⟨hget, hfinds, hsize, hkind⟩
  · intro sources tree standardInput rooting verbosity named path value hload hfound hfree hdepth
      pretty shown
    have hordered : value.Ordered := (ordered_of_load hload named List.mem_cons_self).get hfound
    have hshown : shown.output = Layout.print ⟨.json, pretty⟩ value := by
      rw [output_ask_get_singleton hload, hfound]
    refine ⟨hshown, ?_⟩
    intro again otherTree otherInput otherRooting otherVerbosity hdata reshown
    rw [hshown] at hdata
    exact ask_root_of_print ⟨hordered, hfree, hdepth⟩ hdata otherTree otherInput otherRooting
      otherVerbosity

/-- A control character, a quote, a letter beyond ASCII and the least integer. -/
def oddRow : Json :=
  .array [.string "\x01\"\u00e9", .number (.integer ⟨-9223372036854775808, by decide⟩)]

def oddDocument : Sources where
  data := some "\x7b\"row\": [\"\\u0001\\\"\u00e9\", -9223372036854775808]\x7d"

theorem printed_value_is_reread_oddRow :
    oddRow.Ordered ∧ oddRow.isFloatFree = true ∧ oddRow.depth = 1 ∧
      (Input.text (Layout.print ⟨.json, true⟩ oddRow)).document? = some oddRow ∧
      ∀ again : Sources,
        again.data = some (oddDocument.ask .written .normal .loneFile .empty
          (.get "$.row" ⟨.json, true⟩)).output →
        (again.ask .implied .quiet .loneFile .empty (.get "$" {})).output =
          "[\"\\u0001\\\"\u00e9\",-9223372036854775808]\n" := by
  obtain ⟨hreread, hrun⟩ := printed_value_is_reread
  have hordered : oddRow.Ordered := ⟨trivial, trivial, trivial⟩
  have hload : (oddDocument.load .loneFile .empty).result =
      .ok [⟨"--data", .text (oddDocument.data.getD "")⟩] := rfl
  have hfield : Plan.ofText .written "$.row" = .navigate ⟨[.field "row"]⟩ := by decide +kernel
  have hfound : (Input.text (oddDocument.data.getD "")).get .written "$.row" = some oddRow := by
    rw [Input.get_of_plan _ _ hfield rfl]
    rfl
  refine ⟨hordered, by decide, by decide,
    (hreread oddRow hordered (by decide) (by decide) true).1, ?_⟩
  intro again hagain
  have hshown := (hrun oddDocument .loneFile .empty .written .normal _ "$.row" oddRow hload hfound
    (by decide) (by decide) true).2 again .loneFile .empty .implied .quiet hagain
  rw [hshown.1]
  rfl

end Runs

end Command
end DocumentQuery
