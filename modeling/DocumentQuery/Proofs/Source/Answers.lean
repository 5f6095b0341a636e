import DocumentQuery.Proofs.Query.Answers
import DocumentQuery.Proofs.Source.Reading
import DocumentQuery.Source.Answers

/-!
# All ways to ask agree

A document can be asked itself, as the value or the text of an input, and as the content of
a file. However it is asked, presence, size and kind tell about the value that is found.
-/

namespace DocumentQuery

namespace FileTree

def loneFile : FileTree := ⟨.directory [("row", .file "[null]".toUTF8)], []⟩

theorem lookup_row : loneFile.lookup ⟨"row"⟩ = .ok (.file "[null]".toUTF8) :=
  lookup_of_lone_file (by decide +kernel)

variable {tree : FileTree} {file : FilePath}

theorem answers_of_unread {failure : Failure} (h : ({} : Reader).read tree file = .error failure)
    (path : String) (whole : Option String) :
    tree.get file path = .error failure ∧ tree.finds file path = .error failure ∧
      tree.kind file whole = .error failure := by
  have hinput : tree.input file = .error failure := bind_eq_error_iff.mpr (Or.inl h)
  refine ⟨?_, ?_, ?_⟩
  · exact bind_eq_error_iff.mpr (Or.inl hinput)
  · exact bind_eq_error_iff.mpr (Or.inl hinput)
  · exact bind_eq_error_iff.mpr (Or.inl hinput)

theorem answers_of_read {document : Document} (h : ({} : Reader).read tree file = .ok document)
    (path : String) (whole : Option String) :
    tree.get file path = .ok ((Input.value document.value).get .written path) ∧
      tree.finds file path = .ok ((Input.value document.value).finds .written path) ∧
      tree.kind file whole = .ok ((Input.value document.value).kind .written whole) := by
  have hinput : tree.input file = .ok (.value document.value) :=
    bind_eq_ok_iff.mpr ⟨document, h, rfl⟩
  refine ⟨?_, ?_, ?_⟩
  · exact bind_eq_ok_iff.mpr ⟨_, hinput, rfl⟩
  · exact bind_eq_ok_iff.mpr ⟨_, hinput, rfl⟩
  · exact bind_eq_ok_iff.mpr ⟨_, hinput, rfl⟩

theorem answers_eq_error_iff (failure : Failure) (path : String) (whole : Option String) :
    (tree.get file path = .error failure ↔ ({} : Reader).read tree file = .error failure) ∧
      (tree.finds file path = .error failure ↔ ({} : Reader).read tree file = .error failure) ∧
      (tree.kind file whole = .error failure ↔ ({} : Reader).read tree file = .error failure) := by
  cases hread : ({} : Reader).read tree file with
  | ok document =>
    obtain ⟨hget, hfinds, hkind⟩ := answers_of_read hread path whole
    rw [hget, hfinds, hkind]
    simp
  | error reason =>
    obtain ⟨hget, hfinds, hkind⟩ := answers_of_unread hread path whole
    rw [hget, hfinds, hkind]
    simp

end FileTree

namespace Input

/-- All ways to ask agree. The answers about an input are those about the document that its
value is or its text holds, and without a document they are empty. A path is there exactly if
it finds something, be it null, and size and kind are those of what it finds, so that the
kind is unknown exactly if the path is not there. The empty path finds nothing, while size
and kind take it, or none, for the whole document. The questions about a file fail exactly if
it cannot be read, all with the same failure, and are otherwise answered as those about its
document, with the root sign written. -/
theorem answers_agree (rooting : Rooting) (input : Input) :
    (∀ document, input.document? = some document → ∀ path whole,
      input.get rooting path = document.evaluate rooting path ∧
      input.finds rooting path = document.finds rooting path ∧
      input.size rooting whole = document.sizeAt rooting whole ∧
      input.kind rooting whole = document.kindAt rooting whole) ∧
    (input.document? = none → ∀ path whole,
      input.get rooting path = none ∧ input.finds rooting path = false ∧
      input.size rooting whole = 0 ∧ input.kind rooting whole = .unknown) ∧
    (∀ path, input.finds rooting path = true ↔ ∃ value, input.get rooting path = some value) ∧
    (∀ path, path ≠ "" →
      input.size rooting (some path) = Json.size (input.get rooting path) ∧
      input.kind rooting (some path) = Kind.of (input.get rooting path) ∧
      (input.kind rooting (some path) = .unknown ↔ input.finds rooting path = false)) ∧
    (input.get rooting "" = none ∧ input.finds rooting "" = false ∧
      ∀ whole : Option String, whole.getD "" = "" →
        input.size rooting whole = Json.size input.document? ∧
        input.kind rooting whole = Kind.of input.document?) ∧
    ∀ (tree : FileTree) (file : FilePath) (path : String) (whole : Option String),
      (∀ failure,
        (tree.get file path = .error failure ↔ ({} : Reader).read tree file = .error failure) ∧
        (tree.finds file path = .error failure ↔ ({} : Reader).read tree file = .error failure) ∧
        (tree.kind file whole = .error failure ↔
          ({} : Reader).read tree file = .error failure)) ∧
      ∀ document, ({} : Reader).read tree file = .ok document →
        tree.get file path = .ok ((Input.value document.value).get .written path) ∧
        tree.finds file path = .ok ((Input.value document.value).finds .written path) ∧
        tree.kind file whole = .ok ((Input.value document.value).kind .written whole) := by
  refine ⟨?_, answers_of_no_document rooting input, fun _ => finds_eq_true_iff rooting input, ?_,
    ⟨get_empty rooting input, ?_, ?_⟩, ?_⟩
  · intro document h
    exact answers_of_document rooting input h
  · intro path hpath
    have hkind := kind_eq rooting input hpath
    refine ⟨size_eq rooting input hpath, hkind, ?_⟩
    rw [hkind, Kind.of_eq_unknown_iff, finds_eq_false_iff]
  · exact (finds_eq_false_iff rooting input).mpr (get_empty rooting input)
  · intro whole hwhole
    exact ⟨size_whole rooting input hwhole, kind_whole rooting input hwhole⟩
  · intro tree file path whole
    constructor
    · intro failure
      exact FileTree.answers_eq_error_iff failure path whole
    · intro document hread
      exact FileTree.answers_of_read hread path whole

theorem answers_agree_null :
    ((Input.text "[null]").document? = some (.array [.null]) ∧
      (Input.text "[null]").get .implied "[0]" = some .null ∧
      (Input.text "[null]").finds .implied "[0]" = true ∧
      (Input.text "[null]").kind .implied (some "[0]") = .null ∧
      (Input.text "[null]").size .implied (some "") = 1) ∧
    ((Input.text "[null").document? = none ∧
      (Input.text "[null").kind .written (some "$") = .unknown) ∧
    ({} : Reader).read .loneFile ⟨"row"⟩ = .ok ⟨some ⟨"row"⟩, .json, .array [.null]⟩ ∧
      FileTree.loneFile.get ⟨"row"⟩ "$[0]" = .ok (some .null) := by
  obtain ⟨hdocument, -, hfinds, hpath, ⟨-, -, hwhole⟩, hfile⟩ :=
    answers_agree .implied (.text "[null]")
  obtain ⟨-, hnone, -⟩ := answers_agree .written (.text "[null")
  have hdecoded : (Input.text "[null]").document? = some (.array [.null]) := rfl
  have hundecoded : (Input.text "[null").document? = none := rfl
  have hindex : Plan.ofText .implied "[0]" = .navigate ⟨[.index 0]⟩ := by decide +kernel
  have hrooted : Plan.ofText .written "$[0]" = .navigate ⟨[.index 0]⟩ := by decide +kernel
  have hfound : (Input.text "[null]").get .implied "[0]" = some .null :=
    get_of_plan _ _ hindex hdecoded
  have hread : ({} : Reader).read .loneFile ⟨"row"⟩ =
      .ok ⟨some ⟨"row"⟩, .json, .array [.null]⟩ := by
    have hfits : ∀ limit, ({} : Reader).limit = some limit → "[null]".toUTF8.size ≤ limit := by
      intro limit hlimit
      obtain rfl := Option.some.inj hlimit
      decide
    have hformat : (({} : Reader).format <|> Format.ofPath? ⟨"row"⟩) = none := by decide +kernel
    rw [Reader.read_of_lookup FileTree.lookup_row, Reader.readContent_of_size_le hfits, hformat]
    rfl
  refine ⟨⟨hdecoded, hfound, (hfinds "[0]").mpr ⟨_, hfound⟩, ?_, ?_⟩,
    ⟨hundecoded, (hnone hundecoded "$" (some "$")).2.2.2⟩, hread, ?_⟩
  · rw [(hpath "[0]" (by decide)).2.1, hfound]
    rfl
  · rw [(hwhole (some "") rfl).1, hdecoded]
    rfl
  · rw [((hfile _ _ "$[0]" none).2 _ hread).1, get_of_plan _ _ hrooted rfl]
    rfl

end Input

end DocumentQuery
