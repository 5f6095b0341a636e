import DocumentQuery.Proofs.Source.FoundFiles
import DocumentQuery.Proofs.Source.Paths
import DocumentQuery.Source.Resolver

/-!
# What arguments resolve to

Arguments resolve if each of them is there and can be walked. The result holds, in path
order and each once, the files that are named and the data files below the directories
that are named, less those that are excluded. So neither the order of the arguments nor
their repetition matters, except to how a path is spelled.
-/

namespace DocumentQuery
namespace Resolver

variable {resolver : Resolver} {globs : List Glob} {tree : FileTree}

def Excludes (resolver : Resolver) (path : FilePath) : Prop :=
  ∃ pattern ∈ resolver.exclude, ∃ glob, Glob.ofText resolver.compiles pattern = .ok glob ∧
    glob.accepts path.text = true

/-- A path that an argument stands for: a file for itself, a directory for the data files below
it. Of the latter only the components behind those of the directory can hide them. -/
inductive Names (resolver : Resolver) (tree : FileTree) (argument : FilePath) : FilePath → Prop
  | file (hfile : tree.isFile argument = true) : Names resolver tree argument argument
  | below (names : List String) (hdirectory : tree.isDirectory argument = true)
      (hdepth : Within resolver.maxDepth names.length)
      (hleads : tree.LeadsToFile resolver.followLinks argument names)
      (hextension : resolver.extensions = [] ∨
        (((argument.joinAll names).extension?.map Text.lowerCase).getD "") ∈ resolver.extensions)
      (hshown : resolver.includeHidden = true ∨ ∀ name,
        FilePath.Component.name name ∈
          (argument.joinAll names).components.drop argument.components.length →
            FilePath.Component.isHiddenName name = false) :
      Names resolver tree argument (argument.joinAll names)

theorem isExcluded_iff (hglobs : resolver.exclude.mapM (Glob.ofText resolver.compiles) = .ok globs)
    (path : FilePath) : isExcluded globs path = true ↔ resolver.Excludes path := by
  simp only [isExcluded, List.any_eq_true, mem_iff_of_mapM_eq_ok hglobs, Excludes]
  constructor
  · rintro ⟨glob, ⟨pattern, hpattern, hglob⟩, haccepts⟩
    exact ⟨pattern, hpattern, glob, hglob, haccepts⟩
  · rintro ⟨pattern, hpattern, glob, hglob, haccepts⟩
    exact ⟨glob, ⟨pattern, hpattern, hglob⟩, haccepts⟩

theorem hasWantedExtension_iff (path : FilePath) :
    resolver.hasWantedExtension path = true ↔ resolver.extensions = [] ∨
      ((path.extension?.map Text.lowerCase).getD "") ∈ resolver.extensions := by
  simp [hasWantedExtension]

/-- The components of a found file behind those of its directory are the names that lead to
it. -/
theorem isHidden_eq_false_iff {argument : FilePath} {names : List String}
    (hargument : argument.text ≠ "") (hnames : ∀ name ∈ names, IsEntryName name) :
    isHidden ⟨argument.joinAll names, names⟩ = false ↔
      ∀ name, FilePath.Component.name name ∈
        (argument.joinAll names).components.drop argument.components.length →
          FilePath.Component.isHiddenName name = false := by
  rw [FilePath.components_joinAll hargument hnames, List.drop_left]
  simp [isHidden]

section Arguments

variable {argument : FilePath} {named : List FilePath}

theorem filesOf_eq_ok_iff : resolver.filesOf globs tree argument = .ok named ↔
    (tree.isFile argument = true ∧
      named = if isExcluded globs argument then [] else [argument]) ∨
    (tree.isFile argument = false ∧ tree.isDirectory argument = true ∧
      ∃ found, tree.walk resolver.followLinks resolver.maxDepth argument = .ok found ∧
        named = (found.filter (resolver.isTaken globs)).map FoundFile.path) := by
  unfold filesOf
  cases tree.isFile argument with
  | true =>
    rw [if_pos rfl, Except.ok.injEq]
    simp only [Bool.true_eq_false, false_and, or_false, true_and]
    exact eq_comm
  | false =>
    rw [if_neg Bool.false_ne_true]
    simp only [Bool.false_eq_true, false_and, false_or, true_and]
    cases tree.isDirectory argument with
    | true =>
      rw [if_pos rfl, bind_eq_ok_iff]
      simp only [Except.ok.injEq, true_and]
      constructor
      · rintro ⟨found, hwalk, hnamed⟩
        exact ⟨found, hwalk, hnamed.symm⟩
      · rintro ⟨found, hwalk, hnamed⟩
        exact ⟨found, hwalk, hnamed.symm⟩
    | false => simp

theorem exists_filesOf_eq_ok_iff : (∃ named, resolver.filesOf globs tree argument = .ok named) ↔
    tree.isFile argument = true ∨ tree.isDirectory argument = true ∧
      ∃ found, tree.walk resolver.followLinks resolver.maxDepth argument = .ok found := by
  simp only [filesOf_eq_ok_iff]
  constructor
  · rintro ⟨_, ⟨hfile, -⟩ | ⟨-, hdirectory, found, hwalk, -⟩⟩
    · exact Or.inl hfile
    · exact Or.inr ⟨hdirectory, found, hwalk⟩
  · intro h
    cases hfile : tree.isFile argument with
    | true => exact ⟨_, Or.inl ⟨rfl, rfl⟩⟩
    | false =>
      obtain ⟨hdirectory, found, hwalk⟩ := h.resolve_left (by simp [hfile])
      exact ⟨_, Or.inr ⟨rfl, hdirectory, found, hwalk, rfl⟩⟩

theorem isTaken_iff (hglobs : resolver.exclude.mapM (Glob.ofText resolver.compiles) = .ok globs)
    {names : List String} (hargument : argument.text ≠ "")
    (hnames : ∀ name ∈ names, IsEntryName name) :
    resolver.isTaken globs ⟨argument.joinAll names, names⟩ = true ↔
      (resolver.includeHidden = true ∨ ∀ name,
        FilePath.Component.name name ∈
          (argument.joinAll names).components.drop argument.components.length →
            FilePath.Component.isHiddenName name = false) ∧
      (resolver.extensions = [] ∨
        (((argument.joinAll names).extension?.map Text.lowerCase).getD "") ∈
          resolver.extensions) ∧
      ¬ resolver.Excludes (argument.joinAll names) := by
  rw [← isHidden_eq_false_iff hargument hnames, ← hasWantedExtension_iff,
    ← isExcluded_iff hglobs]
  simp [isTaken, and_assoc]

theorem isFile_eq_false_of_isDirectory (h : tree.isDirectory argument = true) :
    tree.isFile argument = false := by
  unfold FileTree.isDirectory at h
  unfold FileTree.isFile
  split at h
  · next node hlookup =>
    cases node with
    | directory entries => rfl
    | _ => contradiction
  · contradiction

theorem names_iff_of_isFile (hfile : tree.isFile argument = true) {path : FilePath} :
    resolver.Names tree argument path ↔ path = argument := by
  constructor
  · rintro (_ | ⟨_, hdirectory⟩)
    · rfl
    · rw [isFile_eq_false_of_isDirectory hdirectory] at hfile
      contradiction
  · rintro rfl
    exact .file hfile

/-- An argument that resolves does so to the paths it names that are not excluded. -/
theorem mem_filesOf_iff (hw : tree.WellFormed)
    (hglobs : resolver.exclude.mapM (Glob.ofText resolver.compiles) = .ok globs)
    (h : resolver.filesOf globs tree argument = .ok named) (path : FilePath) :
    path ∈ named ↔ ¬ resolver.Excludes path ∧ resolver.Names tree argument path := by
  rcases filesOf_eq_ok_iff.mp h with ⟨hfile, rfl⟩ | ⟨hfile, hdirectory, found, hwalk, rfl⟩
  · rw [names_iff_of_isFile hfile, ← isExcluded_iff hglobs]
    by_cases hexcluded : isExcluded globs argument = true
    · rw [if_pos hexcluded]
      simp only [List.not_mem_nil, false_iff]
      rintro ⟨hshown, rfl⟩
      exact hshown hexcluded
    · rw [if_neg hexcluded, List.mem_singleton]
      constructor
      · rintro rfl
        exact ⟨hexcluded, rfl⟩
      · exact And.right
  · obtain ⟨location, entries, hopen⟩ := FileTree.exists_isOpen_of_isDirectory hdirectory
    have hargument := FileTree.text_ne_empty_of_locate hopen.locate
    have hfound := FileTree.mem_walk_iff hw hdirectory hwalk
    simp only [List.mem_map, List.mem_filter]
    constructor
    · rintro ⟨file, ⟨hmem, htaken⟩, rfl⟩
      obtain ⟨names, rfl, hdepth, hleads⟩ := (hfound file).mp hmem
      obtain ⟨hshown, hextension, hexcluded⟩ :=
        (isTaken_iff hglobs hargument (hleads.isEntryName hw)).mp htaken
      exact ⟨hexcluded, .below names hdirectory hdepth hleads hextension hshown⟩
    · rintro ⟨hexcluded, hnames⟩
      cases hnames with
      | file hcontradiction =>
        rw [hfile] at hcontradiction
        contradiction
      | below names _ hdepth hleads hextension hshown =>
        refine ⟨⟨argument.joinAll names, names⟩, ⟨?_, ?_⟩, rfl⟩
        · exact (hfound _).mpr ⟨names, rfl, hdepth, hleads⟩
        · exact (isTaken_iff hglobs hargument (hleads.isEntryName hw)).mpr
            ⟨hshown, hextension, hexcluded⟩

end Arguments

section Runs

variable {arguments files result : List FilePath}

theorem exists_foldlM_addFilesOf_iff :
    (∃ result, arguments.foldlM (resolver.addFilesOf globs tree) files = .ok result) ↔
      ∀ argument ∈ arguments, ∃ named, resolver.filesOf globs tree argument = .ok named := by
  induction arguments generalizing files with
  | nil => exact ⟨by simp, fun _ => ⟨files, rfl⟩⟩
  | cons argument arguments ih =>
    rw [List.forall_mem_cons]
    constructor
    · rintro ⟨result, h⟩
      obtain ⟨next, hnext, h⟩ := bind_eq_ok_iff.mp h
      obtain ⟨named, hnamed, -⟩ := bind_eq_ok_iff.mp hnext
      exact ⟨⟨named, hnamed⟩, ih.mp ⟨result, h⟩⟩
    · rintro ⟨⟨named, hnamed⟩, hrest⟩
      rw [List.foldlM_cons, addFilesOf, hnamed]
      exact ih.mpr hrest

theorem ascending_addFilesOf {argument : FilePath} (hs : FilePath.Ascending files)
    (h : resolver.addFilesOf globs tree files argument = .ok result) :
    FilePath.Ascending result := by
  obtain ⟨named, -, h⟩ := bind_eq_ok_iff.mp h
  obtain rfl := Except.ok.inj h
  exact FilePath.ascending_foldl_insertInto hs

theorem ascending_foldlM_addFilesOf (hs : FilePath.Ascending files)
    (h : arguments.foldlM (resolver.addFilesOf globs tree) files = .ok result) :
    FilePath.Ascending result :=
  invariant_of_foldlM (fun _ _ _ _ => ascending_addFilesOf) hs h

theorem forall_mem_foldlM_addFilesOf {P : FilePath → Prop} (hfiles : ∀ path ∈ files, P path)
    (hnamed : ∀ argument ∈ arguments, ∀ named,
      resolver.filesOf globs tree argument = .ok named → ∀ path ∈ named, P path)
    (h : arguments.foldlM (resolver.addFilesOf globs tree) files = .ok result) :
    ∀ path ∈ result, P path := by
  have hstep : ∀ reached argument next, argument ∈ arguments → (∀ path ∈ reached, P path) →
      resolver.addFilesOf globs tree reached argument = .ok next → ∀ path ∈ next, P path := by
    intro reached argument next hargument hreached hnext path hpath
    obtain ⟨named, hone, hnext⟩ := bind_eq_ok_iff.mp hnext
    obtain rfl := Except.ok.inj hnext
    rcases FilePath.mem_or_mem_of_mem_foldl_insertInto hpath with hmem | hmem
    · exact hnamed argument hargument named hone path hmem
    · exact hreached path hmem
  exact invariant_of_foldlM hstep hfiles h

theorem exists_components_of_foldlM {components : List FilePath.Component}
    (h : arguments.foldlM (resolver.addFilesOf globs tree) files = .ok result) :
    (∃ file ∈ result, file.components = components) ↔
      (∃ argument ∈ arguments, ∃ named, resolver.filesOf globs tree argument = .ok named ∧
        ∃ file ∈ named, file.components = components) ∨
        ∃ file ∈ files, file.components = components := by
  induction arguments generalizing files with
  | nil =>
    obtain rfl := Except.ok.inj h
    simp
  | cons argument arguments ih =>
    obtain ⟨next, hnext, h⟩ := bind_eq_ok_iff.mp h
    obtain ⟨named, hnamed, hnext⟩ := bind_eq_ok_iff.mp hnext
    obtain rfl := Except.ok.inj hnext
    rw [ih h, FilePath.exists_components_foldl_insertInto]
    simp only [List.mem_cons, exists_eq_or_imp, hnamed, Except.ok.injEq, exists_eq_left']
    rw [or_left_comm, or_assoc]

end Runs

section Resolution

variable {arguments files : List FilePath}

theorem resolve_eq_ok_iff : resolver.resolve tree arguments = .ok files ↔
    ∃ globs, resolver.exclude.mapM (Glob.ofText resolver.compiles) = .ok globs ∧
      arguments.foldlM (resolver.addFilesOf globs tree) [] = .ok files :=
  bind_eq_ok_iff

theorem exists_resolve_eq_ok_iff : (∃ files, resolver.resolve tree arguments = .ok files) ↔
    (∀ pattern ∈ resolver.exclude, ∃ glob, Glob.ofText resolver.compiles pattern = .ok glob) ∧
      ∀ argument ∈ arguments, tree.isFile argument = true ∨
        tree.isDirectory argument = true ∧
          ∃ found, tree.walk resolver.followLinks resolver.maxDepth argument = .ok found := by
  simp only [resolve_eq_ok_iff, ← exists_mapM_eq_ok_iff]
  constructor
  · rintro ⟨files, globs, hglobs, h⟩
    refine ⟨⟨globs, hglobs⟩, ?_⟩
    intro argument hargument
    exact exists_filesOf_eq_ok_iff.mp
      (exists_foldlM_addFilesOf_iff.mp ⟨files, h⟩ argument hargument)
  · rintro ⟨⟨globs, hglobs⟩, hall⟩
    have hnamed : ∀ argument ∈ arguments,
        ∃ named, resolver.filesOf globs tree argument = .ok named := by
      intro argument hargument
      exact exists_filesOf_eq_ok_iff.mpr (hall argument hargument)
    obtain ⟨files, h⟩ := exists_foldlM_addFilesOf_iff.mpr hnamed
    exact ⟨files, globs, hglobs, h⟩

theorem ascending_of_resolve (h : resolver.resolve tree arguments = .ok files) :
    FilePath.Ascending files := by
  obtain ⟨globs, -, h⟩ := resolve_eq_ok_iff.mp h
  exact ascending_foldlM_addFilesOf List.Pairwise.nil h

theorem names_of_mem_resolve (hw : tree.WellFormed)
    (h : resolver.resolve tree arguments = .ok files) :
    ∀ path ∈ files, ¬ resolver.Excludes path ∧
      ∃ argument ∈ arguments, resolver.Names tree argument path := by
  obtain ⟨globs, hglobs, h⟩ := resolve_eq_ok_iff.mp h
  refine forall_mem_foldlM_addFilesOf (by simp) ?_ h
  intro argument hargument named hnamed path hpath
  obtain ⟨hexcluded, hnames⟩ := (mem_filesOf_iff hw hglobs hnamed path).mp hpath
  exact ⟨hexcluded, argument, hargument, hnames⟩

theorem Names.isFile_iff (hw : tree.WellFormed) {argument path : FilePath}
    (h : resolver.Names tree argument path) :
    tree.isFile path = true ↔ path.byteSize ≤ FileTree.maxPathBytes := by
  cases h with
  | file hfile =>
    obtain ⟨content, hlookup⟩ := FileTree.isFile_iff.mp hfile
    exact iff_of_true hfile (FileTree.byteSize_le_of_lookup hlookup)
  | below names _ _ hleads _ _ => exact hleads.isFile_iff hw

/-- Whatever arguments resolve to leads to a regular file, unless it is too long. -/
theorem isFile_iff_of_mem_resolve (hw : tree.WellFormed)
    (h : resolver.resolve tree arguments = .ok files) {path : FilePath} (hpath : path ∈ files) :
    tree.isFile path = true ↔ path.byteSize ≤ FileTree.maxPathBytes := by
  obtain ⟨-, argument, -, hnames⟩ := names_of_mem_resolve hw h path hpath
  exact hnames.isFile_iff hw

theorem exists_components_resolve_iff (hw : tree.WellFormed)
    (h : resolver.resolve tree arguments = .ok files) (components : List FilePath.Component) :
    (∃ file ∈ files, file.components = components) ↔
      ∃ path, path.components = components ∧ ¬ resolver.Excludes path ∧
        ∃ argument ∈ arguments, resolver.Names tree argument path := by
  constructor
  · rintro ⟨file, hfile, hcomponents⟩
    exact ⟨file, hcomponents, names_of_mem_resolve hw h file hfile⟩
  · rintro ⟨path, hcomponents, hexcluded, argument, hargument, hnames⟩
    obtain ⟨globs, hglobs, h⟩ := resolve_eq_ok_iff.mp h
    obtain ⟨named, hnamed⟩ := exists_foldlM_addFilesOf_iff.mp ⟨files, h⟩ argument hargument
    have hpath := (mem_filesOf_iff hw hglobs hnamed path).mpr ⟨hexcluded, hnames⟩
    exact (exists_components_of_foldlM h).mpr
      (Or.inl ⟨argument, hargument, named, hnamed, path, hpath, hcomponents⟩)

/-- Ascending files resolve to themselves, if nothing is excluded. -/
theorem resolve_eq_self (hexclude : resolver.exclude = []) (hs : FilePath.Ascending files)
    (hfiles : ∀ file ∈ files, tree.isFile file = true) :
    resolver.resolve tree files = .ok files := by
  have hfold : ∀ before : List FilePath, FilePath.Ascending (before ++ files) →
      files.foldlM (resolver.addFilesOf [] tree) before = .ok (before ++ files) := by
    clear hs
    induction files with
    | nil => intro before _; simp [pure, Except.pure]
    | cons file rest ih =>
      intro before hbefore
      obtain ⟨hfile, hrest⟩ := List.forall_mem_cons.mp hfiles
      have hnamed : resolver.filesOf [] tree file = .ok [file] :=
        filesOf_eq_ok_iff.mpr (Or.inl ⟨hfile, rfl⟩)
      have hlast : ∀ other ∈ before, other.order file = .lt := by
        intro other hother
        exact (List.pairwise_append.mp hbefore).2.2 other hother file List.mem_cons_self
      have hadded : resolver.addFilesOf [] tree before file = .ok (before ++ [file]) := by
        rw [addFilesOf, hnamed, ← FilePath.insertInto_of_forall_lt hlast]
        rfl
      rw [List.append_cons] at hbefore ⊢
      exact bind_eq_ok_iff.mpr ⟨before ++ [file], hadded, ih hrest _ hbefore⟩
  exact resolve_eq_ok_iff.mpr ⟨[], by rw [hexclude]; rfl, hfold [] hs⟩

/-- Arguments resolve exactly if all patterns can be used, each argument is a file or a
directory, and no walk reports a failure. What they resolve to ascends in path order, and up
to spelling it holds the paths that are named by an argument and not excluded. Other
arguments, in another order or repeated, resolve alike if they are the same paths. -/
theorem resolve_eq_named_paths (resolver : Resolver) {tree : FileTree} (hw : tree.WellFormed)
    (arguments : List FilePath) :
    ((∃ files, resolver.resolve tree arguments = .ok files) ↔
      (∀ pattern ∈ resolver.exclude, ∃ glob, Glob.ofText resolver.compiles pattern = .ok glob) ∧
        ∀ argument ∈ arguments, tree.isFile argument = true ∨
          tree.isDirectory argument = true ∧
            ∃ found, tree.walk resolver.followLinks resolver.maxDepth argument = .ok found) ∧
    (∀ files, resolver.resolve tree arguments = .ok files →
      FilePath.Ascending files ∧
        ∀ path, (∃ file ∈ files, file.same path = true) ↔
          ∃ p : FilePath, p.same path = true ∧ ¬ resolver.Excludes p ∧
            ∃ argument ∈ arguments, resolver.Names tree argument p) ∧
    ∀ others, (∀ argument, argument ∈ others ↔ argument ∈ arguments) →
      ((∃ files, resolver.resolve tree others = .ok files) ↔
        ∃ files, resolver.resolve tree arguments = .ok files) ∧
      ∀ files alike, resolver.resolve tree arguments = .ok files →
        resolver.resolve tree others = .ok alike →
          alike.map FilePath.components = files.map FilePath.components := by
  refine ⟨exists_resolve_eq_ok_iff, ?_, ?_⟩
  · intro files h
    refine ⟨ascending_of_resolve h, ?_⟩
    intro path
    simp only [FilePath.same_iff]
    exact exists_components_resolve_iff hw h path.components
  · intro others hothers
    constructor
    · simp only [exists_resolve_eq_ok_iff, hothers]
    · intro files alike h halike
      apply (ascending_of_resolve halike).map_components_eq (ascending_of_resolve h)
      intro components
      simp only [exists_components_resolve_iff hw h, exists_components_resolve_iff hw halike,
        hothers]

end Resolution

def books : List (String × FileNode) :=
  [("a.json", .file "[null]".toUTF8), ("b.json", .file "[null".toUTF8),
    ("c.json", .file "[]".toUTF8), (".old", .directory [("d.json", .file .empty)]),
    ("e.json", .link "a.json")]

def shelf : FileTree := ⟨.directory [("books", .directory books)], []⟩

theorem wellFormed_shelf : shelf.WellFormed := by
  have hnames : ∀ name ∈ ["books", "a.json", "b.json", "c.json", ".old", "d.json", "e.json"],
      IsEntryName name := by decide +kernel
  simp only [List.forall_mem_cons] at hnames
  obtain ⟨hbooks, ha, hb, hc, hold, hd, he, -⟩ := hnames
  simp [FileTree.WellFormed, shelf, books, FileNode.WellFormed, FileNode.WellFormedEntries, hbooks, ha,
    hb, hc, hold, hd, he]

theorem lookup_books : shelf.lookup ⟨"books"⟩ = .ok (.directory books) :=
  FileTree.lookup_name wellFormed_shelf rfl rfl rfl

theorem isDirectory_books : shelf.isDirectory ⟨"books"⟩ = true :=
  FileTree.isDirectory_iff.mpr ⟨books, lookup_books⟩

theorem lookup_book (name : String) {path : FilePath} {content : ByteArray}
    (hpath : FilePath.join ⟨"books"⟩ name = path)
    (hentry : books.lookup name = some (.file content))
    (hsize : path.byteSize ≤ FileTree.maxPathBytes) : shelf.lookup path = .ok (.file content) := by
  rw [← hpath] at hsize ⊢
  exact FileTree.Lists.lookup_join wellFormed_shelf ⟨books, lookup_books, hentry⟩ rfl hsize

theorem lookup_first : shelf.lookup ⟨"books/a.json"⟩ = .ok (.file "[null]".toUTF8) :=
  lookup_book "a.json" (by decide +kernel) rfl (by decide +kernel)

theorem lookup_second : shelf.lookup ⟨"books/b.json"⟩ = .ok (.file "[null".toUTF8) :=
  lookup_book "b.json" (by decide +kernel) rfl (by decide +kernel)

theorem lookup_third : shelf.lookup ⟨"books/c.json"⟩ = .ok (.file "[]".toUTF8) :=
  lookup_book "c.json" (by decide +kernel) rfl (by decide +kernel)

theorem isFile_first : shelf.isFile ⟨"books/a.json"⟩ = true :=
  FileTree.isFile_iff.mpr ⟨_, lookup_first⟩

/-- A file that is named and also found below a directory is in the result under any of its
spellings; a file in a hidden directory is not. -/
theorem resolve_shelf :
    shelf.WellFormed ∧ ∃ files, ({ extensions := [] } : Resolver).resolve shelf
        [⟨"books"⟩, ⟨"books/a.json"⟩] = .ok files ∧ FilePath.Ascending files ∧
      (∃ file ∈ files, file.same ⟨"books//a.json"⟩ = true) ∧
      ¬ ∃ file ∈ files, file.same ⟨"books/.old/d.json"⟩ = true := by
  obtain ⟨hsucceeds, hfiles, -⟩ := resolve_eq_named_paths { extensions := [] } wellFormed_shelf
    [⟨"books"⟩, ⟨"books/a.json"⟩]
  have hthere : ∃ files, ({ extensions := [] } : Resolver).resolve shelf
      [⟨"books"⟩, ⟨"books/a.json"⟩] = .ok files := by
    rw [hsucceeds]
    simp only [List.not_mem_nil, false_implies, implies_true, true_and, List.forall_mem_cons,
      and_true]
    exact ⟨Or.inr ⟨isDirectory_books,
      FileTree.exists_walk_eq_ok lookup_books (by decide +kernel) none⟩, Or.inl isFile_first⟩
  obtain ⟨files, h⟩ := hthere
  obtain ⟨hascending, hmem⟩ := hfiles files h
  have hnone : ∀ path, ¬ ({ extensions := [] } : Resolver).Excludes path := by
    rintro path ⟨pattern, hpattern, -⟩
    contradiction
  refine ⟨wellFormed_shelf, files, h, hascending, ?_, ?_⟩
  · rw [hmem]
    exact ⟨⟨"books/a.json"⟩, by decide +kernel, hnone _, ⟨"books/a.json"⟩, by simp,
      .file isFile_first⟩
  · rw [hmem]
    rintro ⟨path, hsame, -, argument, hargument, hnames⟩
    have hcomponents : path.components = [.name "books", .name ".old", .name "d.json"] :=
      (FilePath.same_iff.mp hsame).trans (by decide +kernel)
    simp only [List.mem_cons, List.not_mem_nil, or_false] at hargument
    rcases hargument with rfl | rfl
    · cases hnames with
      | file _ => exact absurd hcomponents (by decide +kernel)
      | below names _ _ _ _ hshown =>
        rw [hcomponents] at hshown
        have hhidden := hshown.resolve_left (by simp) ".old" (by decide +kernel)
        exact absurd hhidden (by decide +kernel)
    · obtain rfl := (names_iff_of_isFile isFile_first).mp hnames
      exact absurd hcomponents (by decide +kernel)

end Resolver
end DocumentQuery
