import DocumentQuery.Command.Outcome
import DocumentQuery.Proofs.Command.Runs
import DocumentQuery.Proofs.Source.Reading

/-!
# No file among several is lost

Of several files that are resolved, each one is either among the inputs or told to be
skipped, both in path order. Loading them fails only at a file that a walk has found under a
path too long to be looked up. A run that fails does so while its inputs are loaded, before
anything is printed.
-/

namespace DocumentQuery
namespace Command

variable {reader : Reader} {tree : FileTree} {files : List FilePath}

def inputOf? (reader : Reader) (tree : FileTree) (file : FilePath) : Option NamedInput :=
  match reader.read tree file with
  | .ok document => some (.ofDocument document)
  | .error _ => none

def skipping? (reader : Reader) (tree : FileTree) (file : FilePath) : Option Notice :=
  match reader.read tree file with
  | .ok _ => none
  | .error failure => some (.skipping file.text failure)

theorem isSome_inputOf?_eq (file : FilePath) :
    (inputOf? reader tree file).isSome = !(skipping? reader tree file).isSome := by
  unfold inputOf? skipping?
  cases reader.read tree file <;> rfl

theorem exists_of_inputOf?_eq_some {file : FilePath} {named : NamedInput}
    (h : inputOf? reader tree file = some named) :
    ∃ document, reader.read tree file = .ok document ∧ named = .ofDocument document := by
  unfold inputOf? at h
  split at h
  · next document hread => exact ⟨document, hread, (Option.some.inj h).symm⟩
  · contradiction

theorem name_of_inputOf?_eq_some {file : FilePath} {named : NamedInput}
    (h : inputOf? reader tree file = some named) : named.name = file.text := by
  obtain ⟨document, hread, rfl⟩ := exists_of_inputOf?_eq_some h
  rw [NamedInput.ofDocument, Document.sourceName, Reader.source_of_read hread]
  rfl

/-- A file that does not make the others fail, whether it can be read or not. -/
def Passable (reader : Reader) (tree : FileTree) (file : FilePath) : Prop :=
  ∀ failure, reader.read tree file = .error failure → failure.isRecoverable = true

section Reading

variable {several : Bool} {file : FilePath} {rest : List FilePath} {document : Document}
  {failure : Failure}

theorem readFiles_cons_of_ok (h : reader.read tree file = .ok document) :
    readFiles reader tree several (file :: rest) =
      ⟨(readFiles reader tree several rest).notices, (readFiles reader tree several rest).output,
        (.ofDocument document :: ·) <$> (readFiles reader tree several rest).result⟩ := by
  rw [readFiles, h]
  dsimp only
  rw [bind_pure_comp, Run.map_eq]

theorem readFiles_cons_of_error (h : reader.read tree file = .error failure) :
    readFiles reader tree several (file :: rest) =
      if several && failure.isRecoverable then
        ⟨.skipping file.text failure :: (readFiles reader tree several rest).notices,
          (readFiles reader tree several rest).output,
          (readFiles reader tree several rest).result⟩
      else ⟨[], "", .error failure⟩ := by
  rw [readFiles, h]
  dsimp only
  rw [Run.tell_bind, Run.ofResult]

theorem output_readFiles (several : Bool) : (readFiles reader tree several files).output = "" := by
  induction files with
  | nil => rfl
  | cons file rest ih =>
    cases hread : reader.read tree file with
    | ok document => rw [readFiles_cons_of_ok hread, ih]
    | error failure =>
      rw [readFiles_cons_of_error hread]
      split
      · exact ih
      · rfl

theorem exists_eq_skipping {notice : Notice}
    (h : notice ∈ (readFiles reader tree several files).notices) :
    ∃ path failure, notice = .skipping path failure := by
  induction files with
  | nil => contradiction
  | cons file rest ih =>
    cases hread : reader.read tree file with
    | ok document =>
      rw [readFiles_cons_of_ok hread] at h
      exact ih h
    | error failure =>
      rw [readFiles_cons_of_error hread] at h
      split at h
      · rcases List.mem_cons.mp h with rfl | hrest
        · exact ⟨file.text, failure, rfl⟩
        · exact ih hrest
      · contradiction

/-- If files are read and none fails, each is passable, and the inputs are the documents of those
that can be read. -/
theorem of_readFiles_eq_ok {inputs : List NamedInput}
    (h : (readFiles reader tree several files).result = .ok inputs) :
    (∀ file ∈ files, Passable reader tree file) ∧
      inputs = files.filterMap (inputOf? reader tree) := by
  induction files generalizing inputs with
  | nil => exact ⟨by simp, (Except.ok.inj h).symm⟩
  | cons file rest ih =>
    rw [List.forall_mem_cons, List.filterMap_cons]
    cases hread : reader.read tree file with
    | ok document =>
      rw [readFiles_cons_of_ok hread] at h
      obtain ⟨others, hrest, rfl⟩ := map_eq_ok_iff.mp h
      obtain ⟨hpassable, rfl⟩ := ih hrest
      exact ⟨⟨by simp [Passable, hread], hpassable⟩, by simp [inputOf?, hread]⟩
    | error failure =>
      rw [readFiles_cons_of_error hread] at h
      split at h
      · next hskipped =>
        obtain ⟨hpassable, rfl⟩ := ih h
        have hrecoverable := (Bool.and_eq_true_iff.mp hskipped).2
        exact ⟨⟨by simp [Passable, hread, hrecoverable], hpassable⟩, by simp [inputOf?, hread]⟩
      · contradiction

/-- Of several files, passable ones before the others give their inputs and notices. -/
theorem readFiles_append {before : List FilePath}
    (h : ∀ file ∈ before, Passable reader tree file) (after : List FilePath) :
    readFiles reader tree true (before ++ after) =
      ⟨before.filterMap (skipping? reader tree) ++ (readFiles reader tree true after).notices, "",
        (before.filterMap (inputOf? reader tree) ++ ·) <$>
          (readFiles reader tree true after).result⟩ := by
  induction before with
  | nil =>
    have hquiet : (readFiles reader tree true after).output = "" := output_readFiles true
    rw [← hquiet]
    simp only [List.nil_append, List.filterMap_nil, id_map']
  | cons file rest ih =>
    obtain ⟨hfile, hrest⟩ := List.forall_mem_cons.mp h
    rw [List.cons_append]
    cases hread : reader.read tree file with
    | ok document =>
      rw [readFiles_cons_of_ok hread, ih hrest]
      simp [skipping?, inputOf?, hread]
    | error failure =>
      rw [readFiles_cons_of_error hread, ih hrest]
      simp [skipping?, inputOf?, hread, hfile failure hread]

end Reading

section Sources

variable {sources : Sources} {standardInput : ByteArray}

/-- Of what arguments resolve to, only files under too long a path make the others fail. -/
theorem passable_iff {resolver : Resolver} {arguments : List FilePath} {file : FilePath}
    (hw : tree.WellFormed) (hfiles : resolver.resolve tree arguments = .ok files)
    (hfile : file ∈ files) :
    Passable reader tree file ↔ file.byteSize ≤ FileTree.maxPathBytes := by
  constructor
  · intro hpassable
    by_contra hlong
    have hread : reader.read tree file = .error (.fileNotFound file.text) :=
      Reader.read_of_byteSize_gt (Nat.not_le.mp hlong) reader
    exact Bool.false_ne_true (hpassable _ hread)
  · intro hsize failure hread
    exact (Reader.refuses_of_read hw hfiles hfile hsize hread).isRecoverable

theorem load_eq_readFiles (hdata : sources.data = none) (hgiven : sources.files ≠ [])
    (hfiles : sources.resolver.resolve tree sources.files = .ok files)
    (standardInput : ByteArray) :
    sources.load tree standardInput =
      readFiles sources.reader tree (1 < files.length) files := by
  unfold Sources.load
  rw [hdata]
  dsimp only
  rw [if_neg (by simpa using hgiven), hfiles, Run.ofResult_ok_bind]

section Several

variable (hw : tree.WellFormed) (hdata : sources.data = none) (hgiven : sources.files ≠ [])
  (hfiles : sources.resolver.resolve tree sources.files = .ok files)
  (hseveral : 1 < files.length)

include hw hdata hgiven hfiles hseveral

theorem load_eq_of_several (hsizes : ∀ file ∈ files, file.byteSize ≤ FileTree.maxPathBytes)
    (standardInput : ByteArray) :
    sources.load tree standardInput =
      ⟨files.filterMap (skipping? sources.reader tree), "",
        .ok (files.filterMap (inputOf? sources.reader tree))⟩ := by
  have hpassable : ∀ file ∈ files, Passable sources.reader tree file := by
    intro file hfile
    exact (passable_iff hw hfiles hfile).mpr (hsizes file hfile)
  have hread := readFiles_append hpassable []
  rw [List.append_nil] at hread
  rw [load_eq_readFiles hdata hgiven hfiles, decide_eq_true hseveral, hread]
  simp [readFiles]

theorem load_eq_of_too_long {before after : List FilePath} {file : FilePath}
    (hsplit : files = before ++ file :: after)
    (hsizes : ∀ other ∈ before, other.byteSize ≤ FileTree.maxPathBytes)
    (hlong : FileTree.maxPathBytes < file.byteSize) (standardInput : ByteArray) :
    sources.load tree standardInput =
      ⟨before.filterMap (skipping? sources.reader tree), "",
        .error (.fileNotFound file.text)⟩ := by
  have hpassable : ∀ other ∈ before, Passable sources.reader tree other := by
    intro other hother
    exact (passable_iff hw hfiles (by simp [hsplit, hother])).mpr (hsizes other hother)
  rw [load_eq_readFiles hdata hgiven hfiles, decide_eq_true hseveral, hsplit,
    readFiles_append hpassable, readFiles_cons_of_error (Reader.read_of_byteSize_gt hlong _)]
  simp [Failure.isRecoverable]

theorem load_eq_ok_iff {inputs : List NamedInput} :
    (sources.load tree standardInput).result = .ok inputs ↔
      (∀ file ∈ files, file.byteSize ≤ FileTree.maxPathBytes) ∧
        files.filterMap (inputOf? sources.reader tree) = inputs := by
  constructor
  · intro hload
    rw [load_eq_readFiles hdata hgiven hfiles] at hload
    obtain ⟨hpassable, hinputs⟩ := of_readFiles_eq_ok hload
    refine ⟨fun file hfile => ?_, hinputs.symm⟩
    exact (passable_iff hw hfiles hfile).mp (hpassable file hfile)
  · rintro ⟨hsizes, rfl⟩
    rw [load_eq_of_several hw hdata hgiven hfiles hseveral hsizes]

end Several

theorem load_cases {inputs : List NamedInput}
    (h : (sources.load tree standardInput).result = .ok inputs) :
    (∃ text, inputs = [⟨"--data", .text text⟩]) ∨
      (∃ document, sources.reader.readStream standardInput = .ok document ∧
        inputs = [.ofDocument document]) ∨
      ∃ files, sources.resolver.resolve tree sources.files = .ok files ∧
        inputs = files.filterMap (inputOf? sources.reader tree) := by
  unfold Sources.load at h
  split at h
  · exact Or.inl ⟨_, (Except.ok.inj h).symm⟩
  · split at h
    · rw [Run.result_bind] at h
      obtain ⟨document, hread, hinputs⟩ := bind_eq_ok_iff.mp h
      exact Or.inr (Or.inl ⟨document, hread, (Except.ok.inj hinputs).symm⟩)
    · rw [Run.result_bind] at h
      obtain ⟨files, hfiles, hread⟩ := bind_eq_ok_iff.mp h
      exact Or.inr (Or.inr ⟨files, hfiles, (of_readFiles_eq_ok hread).2⟩)

theorem output_load (sources : Sources) (tree : FileTree) (standardInput : ByteArray) :
    (sources.load tree standardInput).output = "" := by
  unfold Sources.load
  split
  · rfl
  · split
    · cases sources.reader.readStream standardInput <;> rfl
    · cases sources.resolver.resolve tree sources.files with
      | ok files =>
        rw [Run.ofResult_ok_bind]
        exact output_readFiles _
      | error failure => rfl

theorem nodup_names_of_load {inputs : List NamedInput}
    (h : (sources.load tree standardInput).result = .ok inputs) :
    (inputs.map NamedInput.name).Nodup := by
  rcases load_cases h with ⟨text, rfl⟩ | ⟨document, -, rfl⟩ | ⟨files, hfiles, rfl⟩
  · exact List.pairwise_singleton _ _
  · exact List.pairwise_singleton _ _
  · refine (map_filterMap_sublist ?_).nodup (Resolver.ascending_of_resolve hfiles).nodup_texts
    intro file named
    exact name_of_inputOf?_eq_some

end Sources

/-- A run that fails does so while inputs are loaded, before anything is printed. -/
theorem of_failure? {invocation : Invocation} {standardInput : ByteArray} {failure : Failure}
    (h : (invocation.run tree standardInput).failure? = some failure) :
    (invocation.run tree standardInput).output = "" ∧
      ∃ question sources, invocation.task = .ask question sources ∧
        (sources.load tree standardInput).result = .error failure := by
  obtain ⟨task, rooting, verbosity⟩ := invocation
  have hresult := Run.failure?_eq_some_iff.mp h
  cases task with
  | segments path =>
    have hshown : (showSegments rooting path).result = .error failure := hresult
    rw [result_showSegments] at hshown
    contradiction
  | ask question sources =>
    obtain ⟨hload, houtput⟩ :=
      Run.result_and_output_of_failure (exists_answer question rooting) hresult
    exact ⟨houtput.trans (output_load sources tree standardInput), question, sources, rfl, hload⟩

/-- Files that arguments resolve to and whose paths can be looked up are refused for their content
only, and after that others can be worked on. A path that is too long, under which a walk has
found a file, is missing to a reader. So several files are loaded if none of their paths is too
long: the inputs are the documents of those that can be read, and about each of the others
there is one warning, both in path order. Else the first path that is too long ends the run.
A run that fails has printed nothing. -/
theorem load_several_files :
    (∀ (tree : FileTree) (resolver : Resolver) (arguments files : List FilePath),
      tree.WellFormed → resolver.resolve tree arguments = .ok files →
        ∀ (reader : Reader), ∀ file ∈ files,
          (file.byteSize ≤ FileTree.maxPathBytes → ∀ failure,
            reader.read tree file = .error failure →
              (∀ path, failure ≠ .fileNotFound path) ∧
                (∀ path, failure ≠ .unsupportedFormat path) ∧
                reader.Refuses (some file) failure ∧ failure.isRecoverable = true) ∧
          (FileTree.maxPathBytes < file.byteSize →
            reader.read tree file = .error (.fileNotFound file.text) ∧
              ∃ argument ∈ arguments, ∃ names, tree.isDirectory argument = true ∧
                tree.LeadsToFile resolver.followLinks argument names ∧
                file = argument.joinAll names)) ∧
    (∀ (tree : FileTree) (sources : Sources) (files : List FilePath) (standardInput : ByteArray),
      tree.WellFormed → sources.data = none → sources.files ≠ [] →
        sources.resolver.resolve tree sources.files = .ok files → 1 < files.length →
          FilePath.Ascending files ∧
          ((∀ file ∈ files, file.byteSize ≤ FileTree.maxPathBytes) →
            (sources.load tree standardInput).result =
              .ok (files.filterMap (inputOf? sources.reader tree)) ∧
            (sources.load tree standardInput).notices =
              files.filterMap (skipping? sources.reader tree)) ∧
          (∀ before file after, files = before ++ file :: after →
            (∀ other ∈ before, other.byteSize ≤ FileTree.maxPathBytes) →
              FileTree.maxPathBytes < file.byteSize →
                (sources.load tree standardInput).result = .error (.fileNotFound file.text) ∧
                (sources.load tree standardInput).notices =
                  before.filterMap (skipping? sources.reader tree)) ∧
          (∀ notice ∈ (sources.load tree standardInput).notices, notice.level = "WARN") ∧
          ∀ file, (inputOf? sources.reader tree file).isSome =
            !(skipping? sources.reader tree file).isSome) ∧
    ∀ (invocation : Invocation) (tree : FileTree) (standardInput : ByteArray) (failure : Failure),
      (invocation.run tree standardInput).failure? = some failure →
        (invocation.run tree standardInput).output = "" ∧
        (invocation.run tree standardInput).exitCode = 1 ∧
        ∃ question sources, invocation.task = .ask question sources ∧
          (sources.load tree standardInput).result = .error failure := by
  refine ⟨?_, ?_, ?_⟩
  · intro tree resolver arguments files hw hfiles reader file hfile
    constructor
    · intro hsize failure hread
      have hrefused := Reader.refuses_of_read hw hfiles hfile hsize hread
      refine ⟨?_, ?_, hrefused, hrefused.isRecoverable⟩
      · rintro path rfl
        cases hrefused
      · rintro path rfl
        cases hrefused
    · intro hlong
      refine ⟨Reader.read_of_byteSize_gt hlong reader, ?_⟩
      obtain ⟨-, argument, hargument, hnames⟩ :=
        Resolver.names_of_mem_resolve hw hfiles file hfile
      cases hnames with
      | file hthere =>
        have hshort := (Resolver.isFile_iff_of_mem_resolve hw hfiles hfile).mp hthere
        exact absurd hlong (Nat.not_lt.mpr hshort)
      | below names hdirectory _ hleads _ _ =>
        exact ⟨argument, hargument, names, hdirectory, hleads, rfl⟩
  · intro tree sources files standardInput hw hdata hgiven hfiles hseveral
    refine ⟨Resolver.ascending_of_resolve hfiles, ?_, ?_, ?_, isSome_inputOf?_eq⟩
    · intro hsizes
      rw [load_eq_of_several hw hdata hgiven hfiles hseveral hsizes]
      exact ⟨rfl, rfl⟩
    · intro before file after hsplit hsizes hlong
      rw [load_eq_of_too_long hw hdata hgiven hfiles hseveral hsplit hsizes hlong]
      exact ⟨rfl, rfl⟩
    · rw [load_eq_readFiles hdata hgiven hfiles]
      intro notice hnotice
      obtain ⟨path, failure, rfl⟩ := exists_eq_skipping hnotice
      rfl
  · intro invocation tree standardInput failure h
    obtain ⟨houtput, hload⟩ := of_failure? h
    refine ⟨houtput, Run.exitCode_eq_one_iff.mpr ?_, hload⟩
    rw [Run.failure?_eq_some_iff.mp h]
    simp

def shelfSources : Sources where
  files := [⟨"books/a.json"⟩, ⟨"books/b.json"⟩]
  format := some .json

theorem resolve_shelfSources :
    shelfSources.resolver.resolve Resolver.shelf shelfSources.files = .ok shelfSources.files := by
  have hfiles : ∀ file ∈ shelfSources.files, Resolver.shelf.isFile file = true := by
    simp only [shelfSources, List.forall_mem_cons]
    exact ⟨Resolver.isFile_first, FileTree.isFile_iff.mpr ⟨_, Resolver.lookup_second⟩, by simp⟩
  have hascending : FilePath.Ascending shelfSources.files := by
    refine List.pairwise_pair.mpr ?_
    decide +kernel
  exact Resolver.resolve_eq_self rfl hascending hfiles

theorem read_first : shelfSources.reader.read Resolver.shelf ⟨"books/a.json"⟩ =
    .ok ⟨some ⟨"books/a.json"⟩, .json, .array [.null]⟩ := by
  rw [Reader.read_of_lookup Resolver.lookup_first]
  rfl

theorem read_second : shelfSources.reader.read Resolver.shelf ⟨"books/b.json"⟩ =
    .error (.invalidDocument "books/b.json" "EOF while parsing a list at line 1 column 5") := by
  rw [Reader.read_of_lookup Resolver.lookup_second]
  rfl

theorem filterMap_inputOf?_shelf :
    shelfSources.files.filterMap (inputOf? shelfSources.reader Resolver.shelf) =
      [⟨"books/a.json", .value (.array [.null])⟩] := by
  change [_, _].filterMap _ = _
  simp [inputOf?, read_first, read_second, NamedInput.ofDocument]
  rfl

theorem filterMap_skipping?_shelf :
    shelfSources.files.filterMap (skipping? shelfSources.reader Resolver.shelf) =
      [.skipping "books/b.json"
        (.invalidDocument "books/b.json" "EOF while parsing a list at line 1 column 5")] := by
  change [_, _].filterMap _ = _
  simp [skipping?, read_first, read_second]

section Burrow

variable (n : Nat)

/-- A document beside a directory that holds another one under `n` more directories. -/
def burrow : FileTree where
  root := .directory [("a.json", .file "[1]".toUTF8),
    ("d", .directory (FileNode.burrow [("n.json", .file "[2]".toUTF8)] (List.replicate n "n")))]
  home := []

def burrowSources : Sources where
  files := [⟨"a.json"⟩, ⟨"d"⟩]

def deepest : FilePath := FilePath.joinAll ⟨"d"⟩ (List.replicate n "n" ++ ["n.json"])

theorem isEntryName_burrow :
    ∀ name ∈ List.replicate n "n" ++ ["a.json", "d", "n.json"], IsEntryName name := by
  rw [List.forall_mem_append]
  refine ⟨?_, by decide +kernel⟩
  intro name hname
  obtain rfl := List.eq_of_mem_replicate hname
  decide +kernel

theorem isEntryName_deepest : ∀ name ∈ List.replicate n "n" ++ ["n.json"], IsEntryName name := by
  have hnames := isEntryName_burrow n
  simp only [List.forall_mem_append, List.forall_mem_cons] at hnames ⊢
  exact ⟨hnames.1, hnames.2.2.2⟩

theorem wellFormed_burrow : (burrow n).WellFormed := by
  have hnames := isEntryName_burrow n
  simp only [List.forall_mem_append, List.forall_mem_cons] at hnames
  obtain ⟨hinner, hfirst, hdirectory, hlast, -⟩ := hnames
  refine ⟨by simp, hfirst, trivial, hdirectory, ?_, trivial⟩
  exact FileNode.wellFormed_burrow ⟨List.pairwise_singleton _ _, hlast, trivial, trivial⟩ hinner

theorem spanOfNames_replicate : spanOfNames (List.replicate n "n") = 2 * n := by
  have hsize : "n".utf8ByteSize = 1 := rfl
  induction n with
  | zero => rfl
  | succ n ih =>
    rw [List.replicate_succ, spanOfNames, ih, hsize]
    omega

theorem byteSize_deepest : (deepest n).byteSize = 2 * n + 8 := by
  have hstart : (FilePath.mk "d").byteSize = 1 := rfl
  have hlast : "n.json".utf8ByteSize = 6 := rfl
  rw [deepest, FilePath.byteSize_joinAll (by decide) (by decide +kernel) (isEntryName_deepest n),
    hstart, spanOfNames_append, spanOfNames_replicate, spanOfNames, spanOfNames, hlast]
  omega

theorem components_deepest_ne :
    (deepest n).components ≠ (FilePath.mk "a.json").components := by
  have hstart : (FilePath.mk "d").components = [.name "d"] := by decide +kernel
  have hother : (FilePath.mk "a.json").components = [.name "a.json"] := by decide +kernel
  rw [deepest, FilePath.components_joinAll (by decide) (isEntryName_deepest n), hstart, hother]
  simp

theorem lookup_first : (burrow n).lookup ⟨"a.json"⟩ = .ok (.file "[1]".toUTF8) :=
  FileTree.lookup_name (wellFormed_burrow n) rfl rfl rfl

theorem lookup_directory : (burrow n).lookup ⟨"d"⟩ = .ok (.directory
    (FileNode.burrow [("n.json", .file "[2]".toUTF8)] (List.replicate n "n"))) :=
  FileTree.lookup_name (wellFormed_burrow n) rfl rfl rfl

theorem names_burrow_iff (hdepth : 2 * n + 1 ≤ FileTree.maxPathBytes) (path : FilePath) :
    burrowSources.resolver.Names (burrow n) ⟨"d"⟩ path ↔ path = deepest n := by
  have hw := wellFormed_burrow n
  have hdirectory : (burrow n).isDirectory ⟨"d"⟩ = true :=
    FileTree.isDirectory_iff.mpr ⟨_, lookup_directory n⟩
  have hleads : ∀ names, (burrow n).LeadsToFile false ⟨"d"⟩ names ↔
      names = List.replicate n "n" ++ ["n.json"] := by
    intro names
    refine FileTree.leadsToFile_burrow_iff hw (lookup_directory n) ?_
    rw [spanOfNames_replicate]
    exact (Nat.add_comm _ _).trans_le hdepth
  have hnames := isEntryName_deepest n
  constructor
  · intro h
    cases h with
    | file hfile =>
      rw [Resolver.isFile_eq_false_of_isDirectory hdirectory] at hfile
      contradiction
    | below names _ _ hthere _ _ => rw [(hleads names).mp hthere, deepest]
  · rintro rfl
    refine .below _ hdirectory (by intro levels hlevels; contradiction) ((hleads _).mpr rfl) ?_ ?_
    · rw [FilePath.extension?_joinAll (by decide) hnames]
      decide +kernel
    · refine Or.inr ((Resolver.isHidden_eq_false_iff (by decide) hnames).mp ?_)
      have hshown : ∀ name ∈ ["n", "n.json"],
          FilePath.Component.isHiddenName name = false := by decide +kernel
      simp only [List.forall_mem_cons] at hshown
      simp [Resolver.isHidden, hshown]

theorem isFile_burrow : (burrow n).isFile ⟨"a.json"⟩ = true :=
  FileTree.isFile_iff.mpr ⟨_, lookup_first n⟩

theorem exists_resolve_burrow (hdepth : 2 * n + 1 ≤ FileTree.maxPathBytes) :
    ∃ files, burrowSources.resolver.resolve (burrow n) burrowSources.files = .ok files := by
  have hwalk : ∃ found, (burrow n).walk false none ⟨"d"⟩ = .ok found := by
    refine FileTree.exists_walk_eq_ok (lookup_directory n) ?_ none
    rw [FileNode.span, FileNode.spanAmong_burrow, spanOfNames_replicate]
    exact (Nat.add_comm _ _).trans_le hdepth
  refine Resolver.exists_resolve_eq_ok_iff.mpr ⟨by intro pattern hpattern; contradiction, ?_⟩
  simp only [burrowSources, List.forall_mem_cons]
  exact ⟨Or.inl (isFile_burrow n),
    Or.inr ⟨FileTree.isDirectory_iff.mpr ⟨_, lookup_directory n⟩, hwalk⟩, by simp⟩

section Resolved

variable {n} (hdepth : 2 * n + 1 ≤ FileTree.maxPathBytes) {files : List FilePath}
  (hfiles : burrowSources.resolver.resolve (burrow n) burrowSources.files = .ok files)

include hdepth hfiles

theorem eq_of_mem_resolve_burrow {file : FilePath} (hfile : file ∈ files) :
    file = ⟨"a.json"⟩ ∨ file = deepest n := by
  obtain ⟨-, argument, hargument, hnames⟩ :=
    Resolver.names_of_mem_resolve (wellFormed_burrow n) hfiles file hfile
  simp only [burrowSources, List.mem_cons, List.not_mem_nil, or_false] at hargument
  rcases hargument with rfl | rfl
  · exact Or.inl ((Resolver.names_iff_of_isFile (isFile_burrow n)).mp hnames)
  · exact Or.inr ((names_burrow_iff n hdepth file).mp hnames)

theorem mem_resolve_burrow : ⟨"a.json"⟩ ∈ files ∧ deepest n ∈ files := by
  have hthere : ∀ argument ∈ burrowSources.files, ∀ path,
      burrowSources.resolver.Names (burrow n) argument path →
        ∃ file ∈ files, file.components = path.components := by
    intro argument hargument path hnames
    refine (Resolver.exists_components_resolve_iff (wellFormed_burrow n) hfiles _).mpr
      ⟨path, rfl, ?_, argument, hargument, hnames⟩
    rintro ⟨pattern, hpattern, -⟩
    contradiction
  have hne := components_deepest_ne n
  constructor
  · obtain ⟨file, hfile, hcomponents⟩ :=
      hthere ⟨"a.json"⟩ (by simp [burrowSources]) _ (.file (isFile_burrow n))
    rcases eq_of_mem_resolve_burrow hdepth hfiles hfile with rfl | rfl
    · exact hfile
    · exact absurd hcomponents hne
  · obtain ⟨file, hfile, hcomponents⟩ :=
      hthere ⟨"d"⟩ (by simp [burrowSources]) _ ((names_burrow_iff n hdepth _).mpr rfl)
    rcases eq_of_mem_resolve_burrow hdepth hfiles hfile with rfl | rfl
    · exact absurd hcomponents.symm hne
    · exact hfile

theorem exists_resolve_burrow_eq_append : 1 < files.length ∧ ∃ before after,
    files = before ++ deepest n :: after ∧ ∀ other ∈ before, other = ⟨"a.json"⟩ := by
  obtain ⟨hfirst, hlast⟩ := mem_resolve_burrow hdepth hfiles
  have hne : (⟨"a.json"⟩ : FilePath) ≠ deepest n := by
    intro heq
    exact components_deepest_ne n (congrArg FilePath.components heq.symm)
  refine ⟨?_, ?_⟩
  · refine Nat.lt_of_le_of_ne (List.length_pos_of_mem hfirst) ?_
    intro hone
    obtain ⟨file, rfl⟩ := List.length_eq_one_iff.mp hone.symm
    exact hne ((List.mem_singleton.mp hfirst).trans (List.mem_singleton.mp hlast).symm)
  · obtain ⟨before, after, rfl⟩ := List.append_of_mem hlast
    refine ⟨before, after, rfl, ?_⟩
    intro other hother
    refine (eq_of_mem_resolve_burrow hdepth hfiles (List.mem_append_left _ hother)).resolve_right ?_
    rintro rfl
    have hascending := Resolver.ascending_of_resolve hfiles
    have hlt := (List.pairwise_append.mp hascending).2.2 _ hother _ List.mem_cons_self
    rw [FilePath.order_eq_iff.mpr rfl] at hlt
    contradiction

end Resolved

end Burrow

/-- Of two files the one that is no document is skipped; one that lies too deep makes a run
fail. -/
theorem load_shelf :
    (Resolver.shelf.WellFormed ∧ 1 < shelfSources.files.length ∧
      shelfSources.resolver.resolve Resolver.shelf shelfSources.files = .ok shelfSources.files ∧
      (shelfSources.load Resolver.shelf .empty).result =
        .ok [⟨"books/a.json", .value (.array [.null])⟩] ∧
      (shelfSources.load Resolver.shelf .empty).notices =
        [.skipping "books/b.json"
          (.invalidDocument "books/b.json" "EOF while parsing a list at line 1 column 5")]) ∧
    (burrow 2046).WellFormed ∧
      (burrowSources.load (burrow 2046) .empty).result =
        .error (.fileNotFound (deepest 2046).text) ∧
      (Invocation.run ⟨.ask (.finds "$") burrowSources, .written, .normal⟩ (burrow 2046)
        .empty).failure? = some (.fileNotFound (deepest 2046).text) ∧
      (Invocation.run ⟨.ask (.finds "$") burrowSources, .written, .normal⟩ (burrow 2046)
        .empty).output = "" := by
  obtain ⟨-, hload, hfailed⟩ := load_several_files
  obtain ⟨-, hshort, -⟩ := hload Resolver.shelf shelfSources shelfSources.files
    .empty Resolver.wellFormed_shelf rfl (by decide) resolve_shelfSources (by decide)
  obtain ⟨hresult, hnotices⟩ := hshort (by decide +kernel)
  rw [hresult, hnotices, filterMap_inputOf?_shelf, filterMap_skipping?_shelf]
  refine ⟨⟨Resolver.wellFormed_shelf, by decide, resolve_shelfSources, rfl, rfl⟩,
    wellFormed_burrow 2046, ?_⟩
  obtain ⟨files, hfiles⟩ := exists_resolve_burrow 2046 (by decide)
  obtain ⟨hseveral, before, after, rfl, hbefore⟩ :=
    exists_resolve_burrow_eq_append (by decide) hfiles
  obtain ⟨-, -, hlong, -⟩ := hload (burrow 2046) burrowSources _ .empty (wellFormed_burrow 2046) rfl
    (by decide) hfiles hseveral
  have hlost := (hlong before _ after rfl (fun other hother => by rw [hbefore other hother]; decide)
    (by rw [byteSize_deepest]; decide)).1
  have hfailure : (Invocation.run ⟨.ask (.finds "$") burrowSources, .written, .normal⟩
      (burrow 2046) .empty).failure? = some (.fileNotFound (deepest 2046).text) := by
    rw [Run.failure?_eq_some_iff]
    change (burrowSources.load _ _ >>= _).result = _
    rw [Run.bind_of_error hlost]
  exact ⟨hlost, hfailure, (hfailed _ _ _ _ hfailure).1⟩

/-- Files too deep to be looked up are among those that arguments resolve to, but reading them
fails, and so does loading them together with others. -/
theorem not_load_several_files_of_deepest :
    (¬ ∀ (tree : FileTree) (resolver : Resolver) (arguments files : List FilePath),
      tree.WellFormed → resolver.resolve tree arguments = .ok files →
        ∀ (reader : Reader), ∀ file ∈ files, ∀ failure,
          reader.read tree file = .error failure →
            (∀ path, failure ≠ .fileNotFound path) ∧
              (∀ path, failure ≠ .unsupportedFormat path) ∧ failure.isRecoverable = true) ∧
    ¬ ∀ (tree : FileTree) (sources : Sources) (files : List FilePath) (standardInput : ByteArray),
      tree.WellFormed → sources.data = none → sources.files ≠ [] →
        sources.resolver.resolve tree sources.files = .ok files → 1 < files.length →
          (sources.load tree standardInput).result =
            .ok (files.filterMap (inputOf? sources.reader tree)) := by
  obtain ⟨files, hfiles⟩ := exists_resolve_burrow 2046 (by decide)
  obtain ⟨hseveral, -⟩ := exists_resolve_burrow_eq_append (by decide) hfiles
  have hw := wellFormed_burrow 2046
  have hlong : FileTree.maxPathBytes < (deepest 2046).byteSize := by
    rw [byteSize_deepest]
    decide
  have hlast := (mem_resolve_burrow (by decide) hfiles).2
  constructor
  · intro h
    have hread : ({} : Reader).read (burrow 2046) (deepest 2046) =
        .error (.fileNotFound (deepest 2046).text) := Reader.read_of_byteSize_gt hlong _
    exact (h _ _ _ _ hw hfiles {} _ hlast _ hread).1 _ rfl
  · intro h
    have hload := h _ burrowSources _ .empty hw rfl (by decide) hfiles hseveral
    have hsizes := ((load_eq_ok_iff hw rfl (by decide) hfiles hseveral).mp hload).1
    exact absurd (hsizes _ hlast) (Nat.not_le.mpr hlong)

end Command
end DocumentQuery
