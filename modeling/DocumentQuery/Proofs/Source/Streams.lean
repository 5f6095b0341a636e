import DocumentQuery.Proofs.Source.Reading

/-!
# Streams and their limit

Of a stream under a limit one byte more than the limit is read. A stream within the limit is
read as without one. A longer stream is refused for what was read of it alone, which is no
text or too much. A file is measured instead; apart from that, and from the name that a
failure tells, its document is read as from a stream.
-/

namespace DocumentQuery

namespace Failure

def about (name : String) : Failure → Failure
  | fileNotFound _ => fileNotFound name
  | unsupportedFormat _ => unsupportedFormat name
  | invalidDocument _ reason => invalidDocument name reason
  | tooLarge _ size limit => tooLarge name size limit
  | permissionDenied _ => permissionDenied name
  | failure => failure

end Failure

namespace Document

variable {text : String}

def retold (source : Option FilePath) : Except Failure Document → Except Failure Document
  | .ok document => .ok { document with source := source }
  | .error failure => .error (failure.about (nameOf source))

theorem ofJson_retold (source other : Option FilePath) :
    retold other (ofJson text source) = ofJson text other := by
  unfold ofJson
  cases Json.decode text <;> rfl

theorem ofYaml_retold (source other : Option FilePath) :
    retold other (ofYaml text source) = ofYaml text other := by
  unfold ofYaml
  cases hdecode : Yaml.decode text with
  | ok value => rfl
  | error failure =>
    rcases Yaml.exists_yaml_or_conversion_of_decode hdecode with ⟨reason, rfl⟩ | ⟨_, _, rfl⟩
    · rfl
    · rfl

/-- Where a text comes from changes no more than the name of its source. -/
theorem ofText_retold (format : Option Format) (source other : Option FilePath) :
    retold other (ofText text format source) = ofText text format other := by
  cases format with
  | some format =>
    cases format with
    | json => exact ofJson_retold source other
    | yaml => exact ofYaml_retold source other
  | none =>
    have hjson : retold other (ofJson text source) = ofJson text other :=
      ofJson_retold source other
    unfold ofText
    dsimp only
    rw [← hjson]
    cases ofJson text source with
    | ok document => rfl
    | error failure => exact ofYaml_retold source other

end Document

namespace Reader

variable {reader : Reader} {bytes : ByteArray} {limit : Nat}

theorem textOfBytes_of_isValidUTF8 (h : bytes.IsValidUTF8) :
    textOfBytes bytes = .ok (String.fromUTF8 bytes h) := by
  rw [textOfBytes, String.fromUTF8?, dif_pos h]

theorem textOfBytes_of_not_isValidUTF8 (h : ¬ bytes.IsValidUTF8) :
    textOfBytes bytes = .error (.io .other "stream did not contain valid UTF-8") := by
  rw [textOfBytes, String.fromUTF8?, dif_neg h]

theorem readStream_eq_of_taken_eq {other : ByteArray}
    (h : reader.taken bytes = reader.taken other) :
    reader.readStream bytes = reader.readStream other := by
  simp only [readStream, h]

/-- No byte after the one behind the limit is read. -/
theorem taken_eq_of_extract_eq (hlimit : reader.limit = some limit) {other : ByteArray}
    (h : bytes.extract 0 (limit + 1) = other.extract 0 (limit + 1)) :
    reader.taken bytes = reader.taken other := by
  have hwithin : ∀ stream : ByteArray,
      reader.taken stream = (stream.extract 0 (limit + 1)).extract 0 (reach limit) := by
    intro stream
    simp only [taken, hlimit, ByteArray.extract_extract, Nat.zero_add,
      Nat.min_eq_left (reach_le limit)]
  rw [hwithin, hwithin, h]

/-- A stream over the limit is too large, unless the bytes up to one behind the limit are no
text. -/
theorem readStream_of_size_gt (hlimit : reader.limit = some limit)
    (hword : limit + 1 < UInt64.size) (hsize : limit < bytes.size) :
    reader.readStream bytes = .error
      (if (bytes.extract 0 (limit + 1)).IsValidUTF8 then .tooLarge "-" (limit + 1) limit
        else .io .other "stream did not contain valid UTF-8") := by
  have htaken : reader.taken bytes = bytes.extract 0 (limit + 1) := taken_eq_extract hlimit hword
  have hread : (reader.taken bytes).size = limit + 1 := by
    rw [htaken, ByteArray.size_extract]
    omega
  rw [readStream_of_size_taken_gt hlimit (by omega), hread, htaken]
  split
  · next hvalid =>
    rw [textOfBytes_of_isValidUTF8 hvalid]
    rfl
  · next hinvalid =>
    rw [textOfBytes_of_not_isValidUTF8 hinvalid]
    rfl

theorem readStream_ne_tooLarge (hlimit : reader.limit = none) (path : String) (size bound : Nat) :
    reader.readStream bytes ≠ .error (.tooLarge path size bound) := by
  intro h
  rw [readStream_of_size_le (by simp [hlimit])] at h
  have hrefuses : reader.Refuses none (.tooLarge path size bound) := by
    rcases bind_eq_error_iff.mp h with htext | ⟨text, -, hdocument⟩
    · exact refuses_of_textOfBytes htext
    · exact refuses_of_ofText hdocument
  cases hrefuses with
  | size bytes limit hsome => rw [hlimit] at hsome; contradiction

/-- The limit of a stream is exact, and no more is read than it takes to know. A stream within
the limit is read as without a limit. A longer one is refused as too large with one byte more
than the limit, or as no text if its bytes up to there are none by themselves, so that streams
that are alike up to there have the same outcome whatever follows. Where the limit is the
greatest word no stream passes it, since the length of a stream is a word. -/
theorem readStream_limit_exact (format : Option Format) (limit : Nat) (bytes : ByteArray) :
    let limited : Reader := ⟨some limit, format⟩
    let unlimited : Reader := ⟨none, format⟩
    (bytes.size ≤ limit → limited.readStream bytes = unlimited.readStream bytes) ∧
    (limit < bytes.size → limit + 1 < UInt64.size →
      ((bytes.extract 0 (limit + 1)).IsValidUTF8 →
        limited.readStream bytes = .error (.tooLarge "-" (limit + 1) limit)) ∧
      (¬ (bytes.extract 0 (limit + 1)).IsValidUTF8 →
        limited.readStream bytes =
          .error (.io .other "stream did not contain valid UTF-8"))) ∧
    (∀ other : ByteArray, bytes.extract 0 (limit + 1) = other.extract 0 (limit + 1) →
      limited.readStream bytes = limited.readStream other) ∧
    (limit = 18446744073709551615 → bytes.size ≤ 18446744073709551615 →
      limited.readStream bytes = unlimited.readStream bytes ∧
      ∀ path size bound, limited.readStream bytes ≠ .error (.tooLarge path size bound)) := by
  intro limited unlimited
  -- Serves the streams within the limit, and all streams where the limit is the greatest word.
  have hwithin : bytes.size ≤ limit → limited.readStream bytes = unlimited.readStream bytes := by
    intro hsize
    rw [readStream_of_size_le, readStream_of_size_le]
    · intro bound hbound
      contradiction
    · intro bound hbound
      obtain rfl := Option.some.inj hbound
      exact hsize
  refine ⟨hwithin, ?_, ?_, ?_⟩
  · intro hsize hword
    have hover := @readStream_of_size_gt limited bytes limit rfl hword hsize
    constructor
    · intro hvalid
      rw [hover, if_pos hvalid]
    · intro hinvalid
      rw [hover, if_neg hinvalid]
  · intro other hsame
    exact readStream_eq_of_taken_eq (taken_eq_of_extract_eq rfl hsame)
  · rintro rfl hsize
    have hsame := hwithin hsize
    refine ⟨hsame, ?_⟩
    intro path size bound
    rw [hsame]
    exact readStream_ne_tooLarge rfl path size bound

/-- A limit that cuts a character of two bytes, one that does not, and the greatest one. -/
theorem readStream_limit_exact_cutCharacter :
    let reader (limit : Nat) : Reader := ⟨some limit, none⟩
    ((reader 2).readStream "[é]".toUTF8 = .error (.tooLarge "-" 3 2) ∧
      (reader 1).readStream "[é]".toUTF8 =
        .error (.io .other "stream did not contain valid UTF-8") ∧
      (reader 1).readStream "[é]".toUTF8 = (reader 1).readStream "[éé".toUTF8) ∧
    (reader 6).readStream "[null]".toUTF8 = .ok ⟨none, .json, .array [.null]⟩ ∧
      (reader 18446744073709551615).readStream "[null]".toUTF8 =
        .ok ⟨none, .json, .array [.null]⟩ := by
  intro reader
  obtain ⟨-, hover, -, -⟩ := readStream_limit_exact none 2 "[é]".toUTF8
  obtain ⟨-, hcut, hsame, -⟩ := readStream_limit_exact none 1 "[é]".toUTF8
  obtain ⟨hfits, -, -, -⟩ := readStream_limit_exact none 6 "[null]".toUTF8
  obtain ⟨-, -, -, hgreatest⟩ := readStream_limit_exact none 18446744073709551615 "[null]".toUTF8
  have hread : Reader.readStream ⟨none, none⟩ "[null]".toUTF8 =
      .ok ⟨none, .json, .array [.null]⟩ := rfl
  refine ⟨⟨?_, ?_, ?_⟩, ?_, ?_⟩
  · exact (hover (by decide) (by decide)).1 (by decide)
  · exact (hcut (by decide) (by decide)).2 (by decide)
  · exact hsame "[éé".toUTF8 (by decide)
  · exact (hfits (by decide)).trans hread
  · exact (hgreatest rfl (by decide)).1.trans hread

section Files

variable {tree : FileTree} {path : FilePath} {content : ByteArray}

/-- Within the limit the outcome of a stream can be told of any source. -/
theorem retold_readStream (source : Option FilePath)
    (h : ∀ limit, reader.limit = some limit → bytes.size ≤ limit) :
    Document.retold source (reader.readStream bytes) = (do
      Document.ofText (← textOfBytes bytes) reader.format source) := by
  rw [readStream_of_size_le h]
  by_cases hvalid : bytes.IsValidUTF8
  · rw [textOfBytes_of_isValidUTF8 hvalid]
    exact Document.ofText_retold _ none source
  · rw [textOfBytes_of_not_isValidUTF8 hvalid]
    rfl

def streaming (reader : Reader) (path : FilePath) : Reader :=
  ⟨reader.limit, reader.format <|> Format.ofPath? path⟩

theorem read_eq_retold (hlookup : tree.lookup path = .ok (.file content))
    (h : ∀ limit, reader.limit = some limit → content.size ≤ limit) :
    reader.read tree path =
      Document.retold (some path) ((reader.streaming path).readStream content) := by
  have hstream : ∀ limit, (reader.streaming path).limit = some limit → content.size ≤ limit := h
  rw [retold_readStream (some path) hstream, read, hlookup]
  exact readContent_of_size_le h

theorem read_of_size_gt (hlookup : tree.lookup path = .ok (.file content))
    (hlimit : reader.limit = some limit) (hsize : limit < content.size) :
    reader.read tree path = .error (.tooLarge path.text content.size limit) := by
  rw [read, hlookup]
  exact readContent_of_size_gt hlimit hsize

/-- Reading a file and reading a stream of its content agree, in the format that is asked for,
or else the one of the file's extension, or else none. Both succeed or both fail, and a success
is the same format and value. Within the limit a failure is the same too, with the path of the
file where the other has `-`. Over the limit the file fails with its length, and the stream
with one byte more than the limit, or for these bytes if they are no text by themselves. The
length of a file is a word. -/
theorem read_agrees_with_readStream (hlookup : tree.lookup path = .ok (.file content))
    (hlength : content.size < UInt64.size) (reader : Reader) :
    let stream : Reader := ⟨reader.limit, reader.format <|> Format.ofPath? path⟩
    ((∃ document, reader.read tree path = .ok document) ↔
      ∃ document, stream.readStream content = .ok document) ∧
    (∀ document other, reader.read tree path = .ok document →
      stream.readStream content = .ok other →
        document.format = other.format ∧ document.value = other.value) ∧
    ((∀ limit, reader.limit = some limit → content.size ≤ limit) →
      ∀ failure other, reader.read tree path = .error failure →
        stream.readStream content = .error other →
          other = other.about "-" ∧ failure = other.about path.text) ∧
    ∀ limit, reader.limit = some limit → limit < content.size →
      reader.read tree path = .error (.tooLarge path.text content.size limit) ∧
      ((content.extract 0 (limit + 1)).IsValidUTF8 →
        stream.readStream content = .error (.tooLarge "-" (limit + 1) limit)) ∧
      (¬ (content.extract 0 (limit + 1)).IsValidUTF8 →
        stream.readStream content =
          .error (.io .other "stream did not contain valid UTF-8")) := by
  intro stream
  by_cases hfits : ∀ limit, reader.limit = some limit → content.size ≤ limit
  -- Within the limit the outcome of the file is that of the stream, told of the file, and the
  -- outcome of the stream is already told of no file.
  · have hread : reader.read tree path =
        Document.retold (some path) (stream.readStream content) := read_eq_retold hlookup hfits
    have hstream : ∀ limit, stream.limit = some limit → content.size ≤ limit := hfits
    have hself : Document.retold none (stream.readStream content) = stream.readStream content :=
      (retold_readStream none hstream).trans (readStream_of_size_le hstream).symm
    refine ⟨?_, ?_, fun _ => ?_, fun limit hlimit hsize => ?_⟩
    · rw [hread]
      cases stream.readStream content <;> simp [Document.retold]
    · intro document other hdocument hother
      rw [hread, hother] at hdocument
      obtain rfl := Except.ok.inj hdocument
      exact ⟨rfl, rfl⟩
    · intro failure other hfailure hother
      rw [hread, hother] at hfailure
      rw [hother] at hself
      obtain rfl := Except.error.inj hfailure
      exact ⟨(Except.error.inj hself).symm, rfl⟩
    · exact absurd hsize (Nat.not_lt.mpr (hfits limit hlimit))
  · have hexceeds := hfits
    simp only [not_forall, Nat.not_le] at hexceeds
    obtain ⟨limit, hlimit, hsize⟩ := hexceeds
    have hstream := @readStream_of_size_gt stream content limit hlimit (by omega) hsize
    rw [read_of_size_gt hlookup hlimit hsize, hstream]
    refine ⟨by simp, by simp, fun h => absurd h hfits, ?_⟩
    intro other hother _
    obtain rfl := Option.some.inj (hlimit.symm.trans hother)
    refine ⟨rfl, ?_, ?_⟩
    · intro hvalid
      rw [if_pos hvalid]
    · intro hinvalid
      rw [if_neg hinvalid]

def openRow : FileTree := ⟨.directory [("row.json", .file "[é".toUTF8)], []⟩

/-- A row that is never closed, and a limit that cuts the character in it. -/
theorem read_agrees_with_readStream_openRow :
    FileTree.lookup openRow ⟨"row.json"⟩ = .ok (.file "[é".toUTF8) ∧
    (Reader.readStream ⟨none, some .json⟩ "[é".toUTF8 =
        .error (.invalidDocument "-" "expected value at line 1 column 2") ∧
      Reader.read ⟨none, none⟩ openRow ⟨"row.json"⟩ =
        .error (.invalidDocument "row.json" "expected value at line 1 column 2")) ∧
    Reader.read ⟨some 1, none⟩ openRow ⟨"row.json"⟩ = .error (.tooLarge "row.json" 3 1) ∧
      Reader.readStream ⟨some 1, some .json⟩ "[é".toUTF8 =
        .error (.io .other "stream did not contain valid UTF-8") := by
  have hlookup : FileTree.lookup openRow ⟨"row.json"⟩ = .ok (.file "[é".toUTF8) := by
    exact FileTree.lookup_of_lone_file (by decide +kernel)
  have hlength : "[é".toUTF8.size < UInt64.size := by decide
  have hformat : (none <|> Format.ofPath? ⟨"row.json"⟩) = some .json := by decide +kernel
  have hstream : Reader.readStream ⟨none, some .json⟩ "[é".toUTF8 =
      .error (.invalidDocument "-" "expected value at line 1 column 2") := rfl
  obtain ⟨hboth, -, hsame, -⟩ := read_agrees_with_readStream hlookup hlength ⟨none, none⟩
  obtain ⟨-, -, -, hover⟩ := read_agrees_with_readStream hlookup hlength ⟨some 1, none⟩
  dsimp only at hboth hsame hover
  rw [hformat] at hboth hsame hover
  refine ⟨hlookup, ⟨hstream, ?_⟩, (hover 1 rfl (by decide)).1, ?_⟩
  · cases hread : Reader.read ⟨none, none⟩ openRow ⟨"row.json"⟩ with
    | ok document =>
      obtain ⟨other, hother⟩ := hboth.mp ⟨document, hread⟩
      rw [hstream] at hother
      contradiction
    | error failure => rw [(hsame (by simp) failure _ hread hstream).2]; rfl
  · exact (hover 1 rfl (by decide)).2.2 (by decide)

end Files

end Reader

end DocumentQuery
