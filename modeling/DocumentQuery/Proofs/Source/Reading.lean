import DocumentQuery.Proofs.Json.Decoding
import DocumentQuery.Proofs.Results
import DocumentQuery.Proofs.Source.Resolution
import DocumentQuery.Proofs.Yaml.Conversion
import DocumentQuery.Source.Reader

/-!
# Reading what was resolved

A regular file is refused for its content only: for its size, for bytes that are no text,
or because its text is no document. After each of these other files can be worked on. What
arguments resolve to are regular files, so no other failure comes up when they are read,
except that a file which a walk has found under too long a path is missing to a reader. A
document that is read remembers its file, and it is ordered.
-/

namespace DocumentQuery

namespace Document

variable {source : Option FilePath} {text : String} {document : Document}

theorem exists_of_ofJson (h : ofJson text source = .ok document) :
    ∃ value, Json.decode text = .ok value ∧ document = ⟨source, .json, value⟩ := by
  unfold ofJson at h
  split at h
  · next value hdecode => exact ⟨value, hdecode, (Except.ok.inj h).symm⟩
  · contradiction

theorem exists_of_ofYaml (h : ofYaml text source = .ok document) :
    ∃ value, Yaml.decode text = .ok value ∧ document = ⟨source, .yaml, value⟩ := by
  unfold ofYaml at h
  split at h
  · next value hdecode => exact ⟨value, hdecode, (Except.ok.inj h).symm⟩
  · contradiction
  · contradiction

theorem exists_of_ofText {format : Option Format} (h : ofText text format source = .ok document) :
    (∃ value, Json.decode text = .ok value ∧ document = ⟨source, .json, value⟩) ∨
      ∃ value, Yaml.decode text = .ok value ∧ document = ⟨source, .yaml, value⟩ := by
  unfold ofText at h
  split at h
  · exact Or.inl (exists_of_ofJson h)
  · exact Or.inr (exists_of_ofYaml h)
  · split at h
    · next first hfirst =>
      obtain rfl := Except.ok.inj h
      exact Or.inl (exists_of_ofJson hfirst)
    · exact Or.inr (exists_of_ofYaml h)

theorem source_of_ofText {format : Option Format} (h : ofText text format source = .ok document) :
    document.source = source := by
  rcases exists_of_ofText h with ⟨value, -, rfl⟩ | ⟨value, -, rfl⟩ <;> rfl

theorem ordered_of_ofText {format : Option Format} (h : ofText text format source = .ok document) :
    document.value.Ordered := by
  rcases exists_of_ofText h with ⟨value, hjson, rfl⟩ | ⟨value, hyaml, rfl⟩
  · exact Json.ordered_of_decode hjson
  · exact Yaml.ordered_of_decode hyaml

theorem ofText_of_ofText? {value : Json} {format : Option Format}
    (hvalue : Json.ofText? text = some value) (hformat : format = none ∨ format = some .json) :
    ofText text format source = .ok ⟨source, .json, value⟩ := by
  have hjson : ofJson text source = .ok ⟨source, .json, value⟩ := by
    rw [ofJson, Json.ofText?_eq_some_iff.mp hvalue]
  rcases hformat with rfl | rfl
  · rw [ofText, hjson]
  · exact hjson

end Document

namespace Reader

/-- What can be wrong with the content of a source. -/
inductive Refuses (reader : Reader) (source : Option FilePath) : Failure → Prop
  | size (bytes limit : Nat) (hlimit : reader.limit = some limit) (hsize : limit < bytes) :
      Refuses reader source (.tooLarge (Document.nameOf source) bytes limit)
  | noText (reason : String) : Refuses reader source (.io .other reason)
  | noDocument (reason : String) :
      Refuses reader source (.invalidDocument (Document.nameOf source) reason)
  | noJson (value form : String) : Refuses reader source (.conversion value form)

variable {reader : Reader} {source : Option FilePath} {failure : Failure}

theorem Refuses.isRecoverable (h : reader.Refuses source failure) :
    failure.isRecoverable = true := by
  cases h <;> rfl

theorem refuses_of_ofJson {text : String} (h : Document.ofJson text source = .error failure) :
    reader.Refuses source failure := by
  unfold Document.ofJson at h
  split at h
  · contradiction
  · obtain rfl := Except.error.inj h
    exact .noDocument _

theorem refuses_of_ofYaml {text : String} (h : Document.ofYaml text source = .error failure) :
    reader.Refuses source failure := by
  unfold Document.ofYaml at h
  split at h
  · contradiction
  · obtain rfl := Except.error.inj h
    exact .noDocument _
  · next other hnot hdecode =>
    obtain rfl := Except.error.inj h
    rcases Yaml.exists_yaml_or_conversion_of_decode hdecode with ⟨reason, rfl⟩ | ⟨_, _, rfl⟩
    · exact absurd rfl (hnot reason)
    · exact .noJson _ _

theorem refuses_of_ofText {text : String} {format : Option Format}
    (h : Document.ofText text format source = .error failure) : reader.Refuses source failure := by
  unfold Document.ofText at h
  split at h
  · exact refuses_of_ofJson h
  · exact refuses_of_ofYaml h
  · split at h
    · contradiction
    · exact refuses_of_ofYaml h

theorem refuses_of_textOfBytes {bytes : ByteArray} (h : textOfBytes bytes = .error failure) :
    reader.Refuses source failure := by
  unfold textOfBytes at h
  split at h
  · contradiction
  · obtain rfl := Except.error.inj h
    exact .noText _

theorem textOfBytes_toUTF8 (text : String) : textOfBytes text.toUTF8 = .ok text := by
  have htext : String.fromUTF8? text.toUTF8 = some text := by
    simp only [String.fromUTF8?, String.toUTF8_eq_toByteArray, dif_pos text.isValidUTF8]
    rfl
  rw [textOfBytes, htext]

section Streams

variable {bytes : ByteArray} {limit : Nat}

theorem le_reach (limit : Nat) : limit ≤ reach limit := by
  unfold reach
  split <;> omega

theorem reach_le (limit : Nat) : reach limit ≤ limit + 1 := by
  unfold reach
  split <;> omega

theorem taken_of_size_le (h : ∀ limit, reader.limit = some limit → bytes.size ≤ limit) :
    reader.taken bytes = bytes := by
  unfold taken
  cases hlimit : reader.limit with
  | none => rfl
  | some limit =>
    have hall := ByteArray.extract_zero_max_size (a := bytes) (i := reach limit)
    rwa [Nat.max_eq_left ((h limit hlimit).trans (le_reach limit))] at hall

theorem taken_eq_extract (hlimit : reader.limit = some limit) (hword : limit + 1 < UInt64.size) :
    reader.taken bytes = bytes.extract 0 (limit + 1) := by
  rw [taken, hlimit]
  dsimp only
  rw [reach, if_pos hword]

theorem readStream_of_size_taken_le
    (h : ∀ limit, reader.limit = some limit → (reader.taken bytes).size ≤ limit) :
    reader.readStream bytes = (do
      Document.ofText (← textOfBytes (reader.taken bytes)) reader.format none) := by
  unfold readStream
  dsimp only
  cases hlimit : reader.limit with
  | none => rfl
  | some limit => simp only [if_neg (Nat.not_lt.mpr (h limit hlimit))]

/-- What is read and is more than the limit is refused, first for not being a text. -/
theorem readStream_of_size_taken_gt (hlimit : reader.limit = some limit)
    (hsize : limit < (reader.taken bytes).size) :
    reader.readStream bytes = (do
      let _ ← textOfBytes (reader.taken bytes)
      .error (.tooLarge (Document.nameOf none) (reader.taken bytes).size limit)) := by
  unfold readStream
  dsimp only
  simp only [hlimit, if_pos hsize]
  rfl

theorem readStream_of_size_le (h : ∀ limit, reader.limit = some limit → bytes.size ≤ limit) :
    reader.readStream bytes = (do
      Document.ofText (← textOfBytes bytes) reader.format none) := by
  have htaken := taken_of_size_le h
  rw [readStream_of_size_taken_le (htaken.symm ▸ h), htaken]

theorem ordered_of_readStream {document : Document}
    (h : reader.readStream bytes = .ok document) : document.value.Ordered := by
  by_cases hfits : ∀ limit, reader.limit = some limit → (reader.taken bytes).size ≤ limit
  · rw [readStream_of_size_taken_le hfits] at h
    obtain ⟨text, -, hdocument⟩ := bind_eq_ok_iff.mp h
    exact Document.ordered_of_ofText hdocument
  · simp only [not_forall, Nat.not_le] at hfits
    obtain ⟨limit, hlimit, hsize⟩ := hfits
    rw [readStream_of_size_taken_gt hlimit hsize] at h
    obtain ⟨_, _, hdone⟩ := bind_eq_ok_iff.mp h
    contradiction

end Streams

section Files

variable {path : FilePath} {content : ByteArray}

theorem readContent_of_size_gt {limit : Nat} (hlimit : reader.limit = some limit)
    (hsize : limit < content.size) :
    reader.readContent path content = .error (.tooLarge path.text content.size limit) := by
  unfold readContent
  rw [hlimit]
  dsimp only
  rw [if_pos hsize]
  rfl

theorem readContent_of_size_le (h : ∀ limit, reader.limit = some limit → content.size ≤ limit) :
    reader.readContent path content = (do
      Document.ofText (← textOfBytes content) (reader.format <|> Format.ofPath? path)
        (some path)) := by
  unfold readContent
  cases hlimit : reader.limit with
  | none => rfl
  | some limit =>
    dsimp only
    rw [if_neg (Nat.not_lt.mpr (h limit hlimit))]

theorem refuses_of_readContent (h : reader.readContent path content = .error failure) :
    reader.Refuses (some path) failure := by
  by_cases hfits : ∀ limit, reader.limit = some limit → content.size ≤ limit
  · rw [readContent_of_size_le hfits] at h
    rcases bind_eq_error_iff.mp h with htext | ⟨text, -, hdocument⟩
    · exact refuses_of_textOfBytes htext
    · exact refuses_of_ofText hdocument
  · simp only [not_forall, Nat.not_le] at hfits
    obtain ⟨limit, hlimit, hsize⟩ := hfits
    rw [readContent_of_size_gt hlimit hsize] at h
    obtain rfl := Except.error.inj h
    exact .size content.size limit hlimit hsize

theorem exists_ofText_of_readContent {document : Document}
    (h : reader.readContent path content = .ok document) :
    ∃ text, Document.ofText text (reader.format <|> Format.ofPath? path) (some path) =
      .ok document := by
  by_cases hfits : ∀ limit, reader.limit = some limit → content.size ≤ limit
  · rw [readContent_of_size_le hfits] at h
    obtain ⟨text, -, hdocument⟩ := bind_eq_ok_iff.mp h
    exact ⟨text, hdocument⟩
  · simp only [not_forall, Nat.not_le] at hfits
    obtain ⟨limit, hlimit, hsize⟩ := hfits
    rw [readContent_of_size_gt hlimit hsize] at h
    contradiction

theorem source_of_readContent {document : Document}
    (h : reader.readContent path content = .ok document) : document.source = some path := by
  obtain ⟨text, hdocument⟩ := exists_ofText_of_readContent h
  exact Document.source_of_ofText hdocument

theorem ordered_of_readContent {document : Document}
    (h : reader.readContent path content = .ok document) : document.value.Ordered := by
  obtain ⟨text, hdocument⟩ := exists_ofText_of_readContent h
  exact Document.ordered_of_ofText hdocument

variable {tree : FileTree}

theorem source_of_read {document : Document} (h : reader.read tree path = .ok document) :
    document.source = some path := by
  unfold read at h
  split at h
  · contradiction
  · exact source_of_readContent h
  · contradiction

theorem ordered_of_read {document : Document} (h : reader.read tree path = .ok document) :
    document.value.Ordered := by
  unfold read at h
  split at h
  · contradiction
  · exact ordered_of_readContent h
  · contradiction

theorem read_of_lookup (h : tree.lookup path = .ok (.file content)) (reader : Reader) :
    reader.read tree path = reader.readContent path content := by
  rw [read, h]

theorem read_of_byteSize_gt (h : FileTree.maxPathBytes < path.byteSize) (reader : Reader) :
    reader.read tree path = .error (.fileNotFound path.text) := by
  obtain ⟨fault, hlookup⟩ := FileTree.lookup_of_byteSize_gt h
  rw [read, hlookup]

/-- A file that arguments resolve to is refused for its content, if it is, unless its path is
too long. -/
theorem refuses_of_read {resolver : Resolver} {arguments files : List FilePath}
    (hw : tree.WellFormed) (hfiles : resolver.resolve tree arguments = .ok files)
    (hpath : path ∈ files) (hsize : path.byteSize ≤ FileTree.maxPathBytes)
    (h : reader.read tree path = .error failure) : reader.Refuses (some path) failure := by
  obtain ⟨content, hlookup⟩ :=
    FileTree.isFile_iff.mp ((Resolver.isFile_iff_of_mem_resolve hw hfiles hpath).mpr hsize)
  rw [read_of_lookup hlookup] at h
  exact refuses_of_readContent h

end Files

end Reader
end DocumentQuery
