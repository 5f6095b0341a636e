import DocumentQuery.Proofs.Results
import DocumentQuery.Proofs.Source.Trees
import DocumentQuery.Source.Walk

/-!
# The files a walk finds

Names lead from a directory to a file if each of them is listed in the directory before it, as
a directory or in the end as a file. A link counts as what it leads to, if links are followed.
A walk that reports no failure finds the files that at most so many names lead to, and no
others. The path of such a file leads to it unless the path is too long, since a listing does
not look it up.
-/

namespace DocumentQuery

def FilePath.joinAll (path : FilePath) (names : List String) : FilePath := names.foldl join path

/-- How many bytes names take in a path, with a slash before each. -/
def spanOfNames : List String → Nat
  | [] => 0
  | name :: rest => name.utf8ByteSize + 1 + spanOfNames rest

theorem spanOfNames_append (names more : List String) :
    spanOfNames (names ++ more) = spanOfNames names + spanOfNames more := by
  induction names with
  | nil => simp [spanOfNames]
  | cons name rest ih =>
    rw [List.cons_append, spanOfNames, spanOfNames, ih]
    omega

/-- A number of names that a depth allows. -/
def Within (depth : Option Nat) (n : Nat) : Prop := ∀ levels, depth = some levels → n ≤ levels

theorem FilePath.components_joinAll {path : FilePath} {names : List String}
    (hpath : path.text ≠ "") (hnames : ∀ name ∈ names, IsEntryName name) :
    (path.joinAll names).components = path.components ++ names.map .name := by
  induction names generalizing path with
  | nil => simp [joinAll]
  | cons name rest ih =>
    obtain ⟨hname, hrest⟩ := List.forall_mem_cons.mp hnames
    have hjoin : path.joinAll (name :: rest) = (path.join name).joinAll rest := rfl
    rw [hjoin, ih (text_join_ne_empty hpath name) hrest, components_join hpath hname]
    simp

theorem FilePath.byteSize_joinAll {path : FilePath} {names : List String}
    (hpath : path.text ≠ "") (hslash : path.text.endsWith "/" = false)
    (hnames : ∀ name ∈ names, IsEntryName name) :
    (path.joinAll names).byteSize = path.byteSize + spanOfNames names := by
  induction names generalizing path with
  | nil => simp [joinAll, spanOfNames]
  | cons name rest ih =>
    obtain ⟨hname, hrest⟩ := List.forall_mem_cons.mp hnames
    have hjoin : path.joinAll (name :: rest) = (path.join name).joinAll rest := rfl
    rw [hjoin, ih (text_join_ne_empty hpath name) (endsWith_slash_join path hname) hrest,
      byteSize_join hpath hslash, spanOfNames, Nat.add_assoc]

theorem FilePath.extension?_joinAll {path : FilePath} {names : List String} {last : String}
    (hpath : path.text ≠ "") (hnames : ∀ name ∈ names ++ [last], IsEntryName name) :
    (path.joinAll (names ++ [last])).extension? = extensionOfName? last := by
  rw [extension?, fileName?, components_joinAll hpath hnames, List.map_append, ← List.append_assoc,
    List.map_singleton, List.getLast?_concat]
  rfl

theorem within_pred_iff {depth : Option Nat} {n : Nat} (h : depth ≠ some 0) :
    Within (depth.map (· - 1)) n ↔ Within depth (n + 1) := by
  unfold Within
  cases depth with
  | none => simp
  | some levels =>
    simp only [Option.map_some, Option.some.injEq, forall_eq']
    have hlevels : levels ≠ 0 := fun hzero => h (congrArg some hzero)
    omega

namespace FileTree

def Lists (tree : FileTree) (path : FilePath) (name : String) (node : FileNode) : Prop :=
  ∃ entries, tree.lookup path = .ok (.directory entries) ∧ entries.lookup name = some node

/-- What an entry below a path counts as. The path of an entry is looked up for links only. -/
inductive Shows (tree : FileTree) (followLinks : Bool) (path : FilePath) (name : String) :
    FileNode → Prop
  | itself {node : FileNode} (hentry : tree.Lists path name node) (hnode : node.isLink = false) :
      Shows tree followLinks path name node
  | target {target : String} {node : FileNode} (hfollowed : followLinks = true)
      (hentry : tree.Lists path name (.link target))
      (htarget : tree.lookup (path.join name) = .ok node) : Shows tree followLinks path name node

/-- Names lead from a directory to a regular file. -/
inductive LeadsToFile (tree : FileTree) (followLinks : Bool) : FilePath → List String → Prop
  | file {path : FilePath} {name : String} {content : ByteArray}
      (hfile : tree.Shows followLinks path name (.file content)) :
      LeadsToFile tree followLinks path [name]
  | deeper {path : FilePath} {name : String} {names : List String}
      {entries : List (String × FileNode)}
      (hdirectory : tree.Shows followLinks path name (.directory entries))
      (hrest : LeadsToFile tree followLinks (path.join name) names) :
      LeadsToFile tree followLinks path (name :: names)

variable {tree : FileTree} {followLinks : Bool}

section Leading

variable {path : FilePath} {location : Location} {name : String} {names : List String}
  {node other : FileNode}

theorem lookup_eq_ok_iff : tree.lookup path = .ok node ↔
    ∃ location, tree.locate .followed path = .ok location ∧
      tree.node? location = some node := by
  unfold lookup
  rw [bind_eq_ok_iff]
  refine exists_congr fun location => and_congr_right fun _ => ?_
  cases tree.node? location <;> simp

theorem isFile_iff : tree.isFile path = true ↔ ∃ content, tree.lookup path = .ok (.file content) := by
  unfold FileTree.isFile
  split
  · next node hlookup =>
    rw [hlookup]
    cases node <;> simp [FileNode.isFile]
  · next hlookup => simp [hlookup]

theorem isDirectory_iff :
    tree.isDirectory path = true ↔ ∃ entries, tree.lookup path = .ok (.directory entries) := by
  unfold FileTree.isDirectory
  split
  · next node hlookup =>
    rw [hlookup]
    cases node <;> simp [FileNode.isDirectory]
  · next hlookup => simp [hlookup]

theorem byteSize_le_of_lookup (h : tree.lookup path = .ok node) : path.byteSize ≤ maxPathBytes := by
  obtain ⟨location, hlocate, -⟩ := lookup_eq_ok_iff.mp h
  exact (locate_eq_ok_iff.mp hlocate).2.1

theorem lookup_of_byteSize_gt (h : maxPathBytes < path.byteSize) :
    ∃ fault, tree.lookup path = .error fault := by
  cases hlookup : tree.lookup path with
  | error fault => exact ⟨fault, rfl⟩
  | ok node => exact absurd (byteSize_le_of_lookup hlookup) (Nat.not_le.mpr h)

theorem Lists.unique (h : tree.Lists path name node) (hother : tree.Lists path name other) :
    node = other := by
  obtain ⟨entries, hlookup, hentry⟩ := h
  obtain ⟨more, hmore, hotherEntry⟩ := hother
  obtain rfl := FileNode.directory.inj (Except.ok.inj (hlookup.symm.trans hmore))
  exact Option.some.inj (hentry.symm.trans hotherEntry)

theorem Lists.isEntryName (hw : tree.WellFormed) (h : tree.Lists path name node) :
    IsEntryName name := by
  obtain ⟨entries, hlookup, hentry⟩ := h
  obtain ⟨location, -, hdirectory⟩ := lookup_eq_ok_iff.mp hlookup
  exact (hw.directory hdirectory).2 _ (FileNode.mem_of_lookup hentry)

/-- An entry that is no link is what its path leads to, unless this path is too long. -/
theorem Lists.lookup_join (hw : tree.WellFormed) (h : tree.Lists path name node)
    (hnode : node.isLink = false) (hsize : (path.join name).byteSize ≤ maxPathBytes) :
    tree.lookup (path.join name) = .ok node := by
  have hname := h.isEntryName hw
  obtain ⟨entries, hlookup, hentry⟩ := h
  obtain ⟨location, hlocate, hdirectory⟩ := lookup_eq_ok_iff.mp hlookup
  exact lookup_eq_ok_iff.mpr ⟨location ++ [name],
    locate_join hlocate hdirectory hname hentry hnode hsize,
    (node?_entry hdirectory name).trans hentry⟩

theorem lookup_name {entries : List (String × FileNode)} (hw : tree.WellFormed)
    (hhome : tree.node? tree.home = some (.directory entries))
    (hentry : entries.lookup name = some node) (hnode : node.isLink = false) :
    tree.lookup ⟨name⟩ = .ok node := by
  have hname := (hw.directory hhome).2 _ (FileNode.mem_of_lookup hentry)
  have hstart : tree.startOf ⟨name⟩ = tree.home := by
    rw [startOf, if_neg]
    intro habsolute
    obtain ⟨rest, hrest⟩ := FilePath.isAbsolute_iff.mp habsolute
    exact hname.noSlash (hrest ▸ List.mem_cons_self)
  have hfollows : tree.Follows maxLinks tree.home [name] maxLinks (tree.home ++ [name]) :=
    follows_name hhome hname.toIsName hentry hnode
  refine lookup_eq_ok_iff.mpr ⟨tree.home ++ [name], locate_eq_ok_iff.mpr ⟨hname.ne_empty, ?_, ?_⟩,
    (node?_entry hhome name).trans hentry⟩
  · exact Nat.le_trans hname.short (by decide)
  · rw [FilePath.pieces_of_noSlash hname.noSlash, hstart]
    exact hfollows.locateFrom_eq

theorem lookup_of_lone_file {content : ByteArray} (hname : IsEntryName name) :
    lookup ⟨.directory [(name, .file content)], []⟩ ⟨name⟩ = .ok (.file content) := by
  have hw : WellFormed ⟨.directory [(name, .file content)], []⟩ :=
    ⟨List.pairwise_singleton _ _, hname, trivial, trivial⟩
  exact lookup_name hw rfl List.lookup_cons_self rfl

theorem Shows.exists_lists (h : tree.Shows followLinks path name node) :
    ∃ entry, tree.Lists path name entry := by
  cases h with
  | itself hentry _ => exact ⟨node, hentry⟩
  | target _ hentry _ => exact ⟨_, hentry⟩

theorem Shows.of_link {target : String} (hlink : tree.Lists path name (.link target))
    (h : tree.Shows followLinks path name node) :
    followLinks = true ∧ tree.lookup (path.join name) = .ok node := by
  cases h with
  | itself hentry hnode =>
    obtain rfl := hlink.unique hentry
    contradiction
  | target hfollowed _ htarget => exact ⟨hfollowed, htarget⟩

theorem Shows.unique (h : tree.Shows followLinks path name node)
    (hother : tree.Shows followLinks path name other) : node = other := by
  cases h with
  | itself hentry hnode =>
    cases hother with
    | itself hsame _ => exact hentry.unique hsame
    | target _ hlink _ =>
      obtain rfl := hentry.unique hlink
      contradiction
  | target _ hlink htarget =>
    exact Except.ok.inj (htarget.symm.trans (hother.of_link hlink).2)

theorem Shows.lookup_join (hw : tree.WellFormed) (h : tree.Shows followLinks path name node)
    (hsize : (path.join name).byteSize ≤ maxPathBytes) :
    tree.lookup (path.join name) = .ok node := by
  cases h with
  | itself hentry hnode => exact hentry.lookup_join hw hnode hsize
  | target _ _ htarget => exact htarget

theorem LeadsToFile.isEntryName (hw : tree.WellFormed)
    (h : tree.LeadsToFile followLinks path names) : ∀ name ∈ names, IsEntryName name := by
  induction h with
  | file hfile =>
    obtain ⟨entry, hentry⟩ := hfile.exists_lists
    exact List.forall_mem_singleton.mpr (hentry.isEntryName hw)
  | deeper hdirectory _ ih =>
    obtain ⟨entry, hentry⟩ := hdirectory.exists_lists
    exact List.forall_mem_cons.mpr ⟨hentry.isEntryName hw, ih⟩

/-- The path that names lead to is that of a regular file, unless it is too long. -/
theorem LeadsToFile.isFile_iff (hw : tree.WellFormed)
    (h : tree.LeadsToFile followLinks path names) :
    tree.isFile (path.joinAll names) = true ↔ (path.joinAll names).byteSize ≤ maxPathBytes := by
  constructor
  · intro hfile
    obtain ⟨content, hlookup⟩ := FileTree.isFile_iff.mp hfile
    exact byteSize_le_of_lookup hlookup
  · induction h with
    | file hfile => exact fun hsize => FileTree.isFile_iff.mpr ⟨_, hfile.lookup_join hw hsize⟩
    | deeper _ _ ih => exact ih

theorem LeadsToFile.ne_nil (h : tree.LeadsToFile followLinks path names) : names ≠ [] := by
  cases h <;> simp

theorem leadsToFile_cons_iff_of_file {content : ByteArray}
    (hshows : tree.Shows followLinks path name (.file content)) :
    tree.LeadsToFile followLinks path (name :: names) ↔ names = [] := by
  constructor
  · intro h
    cases h with
    | file _ => rfl
    | deeper hdirectory _ => exact nomatch hshows.unique hdirectory
  · rintro rfl
    exact .file hshows

theorem leadsToFile_cons_iff_of_directory {entries : List (String × FileNode)}
    (hshows : tree.Shows followLinks path name (.directory entries)) :
    tree.LeadsToFile followLinks path (name :: names) ↔
      tree.LeadsToFile followLinks (path.join name) names := by
  constructor
  · intro h
    cases h with
    | file hfile => exact nomatch hshows.unique hfile
    | deeper _ hrest => exact hrest
  · exact .deeper hshows

theorem LeadsToFile.exists_shows (h : tree.LeadsToFile followLinks path (name :: names)) :
    ∃ shown, tree.Shows followLinks path name shown ∧
      (shown.isFile = true ∨ shown.isDirectory = true) := by
  cases h with
  | file hfile => exact ⟨_, hfile, Or.inl rfl⟩
  | deeper hdirectory _ => exact ⟨_, hdirectory, Or.inr rfl⟩

theorem LeadsToFile.exists_entry {entries : List (String × FileNode)}
    (h : tree.LeadsToFile followLinks path names)
    (hlookup : tree.lookup path = .ok (.directory entries)) :
    ∃ entry ∈ entries, ∃ rest, names = entry.1 :: rest := by
  obtain ⟨name, rest, rfl⟩ := List.exists_cons_of_ne_nil h.ne_nil
  obtain ⟨shown, hshows, -⟩ := h.exists_shows
  obtain ⟨entry, others, hothers, hentry⟩ := hshows.exists_lists
  obtain rfl := FileNode.directory.inj (Except.ok.inj (hlookup.symm.trans hothers))
  exact ⟨(name, entry), FileNode.mem_of_lookup hentry, rest, rfl⟩

end Leading

/-- An open directory is where its path leads, and lists entries. -/
structure IsOpen (tree : FileTree) (directory : OpenDirectory)
    (entries : List (String × FileNode)) : Prop where
  locate : tree.locate .followed directory.path = .ok directory.location
  lists : tree.node? directory.location = some (.directory entries)

theorem IsOpen.lookup {directory : OpenDirectory} {entries : List (String × FileNode)}
    (h : tree.IsOpen directory entries) :
    tree.lookup directory.path = .ok (.directory entries) :=
  lookup_eq_ok_iff.mpr ⟨directory.location, h.locate, h.lists⟩

def Fits (tree : FileTree) (followLinks : Bool) (directory : FilePath) (name : String) :
    Visit → Prop
  | .pass => ∀ names, ¬ tree.LeadsToFile followLinks directory (name :: names)
  | .take => ∃ content, tree.Shows followLinks directory name (.file content)
  | .enter location entries =>
    tree.Shows followLinks directory name (.directory entries) ∧
      ((directory.join name).byteSize ≤ maxPathBytes →
        tree.IsOpen ⟨directory.join name, location⟩ entries)
  | .refuse _ => True

theorem fits_visit {chain : List OpenDirectory} {closed : List Location}
    {directory : OpenDirectory} {entries : List (String × FileNode)} {name : String}
    {node : FileNode} (hopen : tree.IsOpen directory entries) (hname : IsEntryName name)
    (hentry : entries.lookup name = some node) :
    tree.Fits followLinks directory.path name
      (tree.visit followLinks chain closed directory name node) := by
  have hlists : tree.Lists directory.path name node := ⟨entries, hopen.lookup, hentry⟩
  cases node with
  | file content => exact ⟨content, .itself hlists rfl⟩
  | directory inner =>
    refine ⟨.itself hlists rfl, fun hsize => ⟨?_, (node?_entry hopen.lists name).trans hentry⟩⟩
    exact locate_join hopen.locate hopen.lists hname hentry rfl hsize
  | link target =>
    unfold visit
    dsimp only
    split
    · next hunfollowed =>
      intro names hleads
      obtain ⟨shown, hshows, -⟩ := hleads.exists_shows
      simp [(hshows.of_link hlists).1] at hunfollowed
    · next hfollowed =>
      have hfollow : followLinks = true := by simpa using hfollowed
      split
      · trivial
      · next place hplace =>
        have hshows : ∀ shown, tree.node? place = some shown →
            tree.Shows followLinks directory.path name shown := by
          intro shown hshown
          exact .target hfollow hlists (lookup_eq_ok_iff.mpr ⟨place, hplace, hshown⟩)
        split
        · next inner hinner =>
          split
          · exact ⟨hshows _ hinner, fun _ => ⟨hplace, hinner⟩⟩
          · trivial
        · next content hfile => exact ⟨content, hshows _ hfile⟩
        · next hdirectory hfile =>
          intro names hleads
          obtain ⟨shown, hshown, hkind⟩ := hleads.exists_shows
          obtain ⟨reached, hreached, hnode⟩ := lookup_eq_ok_iff.mp (hshown.of_link hlists).2
          obtain rfl := Except.ok.inj (hplace.symm.trans hreached)
          cases shown with
          | file content => exact hfile content hnode
          | directory inner => exact hdirectory inner hnode
          | link _ => simp [FileNode.isFile, FileNode.isDirectory] at hkind

def FoundAt (tree : FileTree) (followLinks : Bool) (depth : Option Nat) (directory : FilePath)
    (below : List String) (name : String) (file : FoundFile) : Prop :=
  ∃ rest, file = ⟨(directory.join name).joinAll rest, below ++ name :: rest⟩ ∧
    Within depth rest.length ∧ tree.LeadsToFile followLinks directory (name :: rest)

section Walks

variable {chain : List OpenDirectory} {closed : List Location} {depth : Option Nat}
  {directory : FilePath} {below : List String} {name : String} {file : FoundFile}
  {entries : List (String × FileNode)}

theorem foundAt_iff_of_file {content : ByteArray}
    (hshows : tree.Shows followLinks directory name (.file content)) :
    tree.FoundAt followLinks depth directory below name file ↔
      file = ⟨directory.join name, below ++ [name]⟩ := by
  unfold FoundAt
  simp only [leadsToFile_cons_iff_of_file hshows]
  constructor
  · rintro ⟨_, rfl, -, rfl⟩
    rfl
  · rintro rfl
    exact ⟨[], rfl, fun levels _ => Nat.zero_le levels, rfl⟩

theorem foundAt_iff_of_directory
    (hshows : tree.Shows followLinks directory name (.directory entries))
    (hlookup : tree.lookup (directory.join name) = .ok (.directory entries))
    (hdepth : depth ≠ some 0) :
    tree.FoundAt followLinks depth directory below name file ↔
      ∃ entry ∈ entries, tree.FoundAt followLinks (depth.map (· - 1)) (directory.join name)
        (below ++ [name]) entry.1 file := by
  unfold FoundAt
  simp only [leadsToFile_cons_iff_of_directory hshows, within_pred_iff hdepth]
  constructor
  · rintro ⟨_, rfl, hwithin, hleads⟩
    obtain ⟨entry, hentry, rest, rfl⟩ := hleads.exists_entry hlookup
    exact ⟨entry, hentry, rest, by simp [FilePath.joinAll], hwithin, hleads⟩
  · rintro ⟨entry, hentry, rest, rfl, hwithin, hleads⟩
    exact ⟨entry.1 :: rest, by simp [FilePath.joinAll], hwithin, hleads⟩

theorem not_foundAt_of_depth
    (hshows : tree.Shows followLinks directory name (.directory entries)) :
    ¬ tree.FoundAt followLinks (some 0) directory below name file := by
  unfold FoundAt
  simp only [leadsToFile_cons_iff_of_directory hshows]
  rintro ⟨rest, -, hwithin, hleads⟩
  exact hleads.ne_nil (List.length_eq_zero_iff.mp (Nat.le_zero.mp (hwithin 0 rfl)))

theorem together_eq_ok_iff {found others : Except Failure (List FoundFile)}
    {result : List FoundFile} : together found others = .ok result ↔
      ∃ front back, found = .ok front ∧ others = .ok back ∧ result = front ++ back := by
  cases found with
  | error failure => simp [together, bind, Except.bind]
  | ok front =>
    cases others with
    | error failure => simp [together, bind, Except.bind]
    | ok back => simp [together, bind, Except.bind, pure, Except.pure, eq_comm]

end Walks

/-- A walk of some entries of a directory finds what is to be found at each of them. -/
theorem mem_walkEntries_iff {chain : List OpenDirectory} {closed : List Location}
    {depth : Option Nat} {directory : OpenDirectory} {below : List String}
    {entries all : List (String × FileNode)} {found : List FoundFile} (hw : tree.WellFormed)
    (hopen : tree.IsOpen directory all) (hall : ∀ entry ∈ entries, entry ∈ all)
    (h : tree.walkEntries followLinks chain closed depth directory below entries = .ok found)
    (file : FoundFile) :
    file ∈ found ↔
      ∃ entry ∈ entries, tree.FoundAt followLinks depth directory.path below entry.1 file := by
  fun_induction walkEntries tree followLinks chain closed depth directory below entries
    generalizing found all with
  | case1 =>
    obtain rfl := Except.ok.inj h
    simp
  | case2 chain closed depth directory below name node rest path first =>
    rename_i ihinner ihrest
    obtain ⟨hentry, hrest⟩ := List.forall_mem_cons.mp hall
    obtain ⟨hnodup, hnames⟩ := hw.directory hopen.lists
    have hlookup := FileNode.lookup_of_mem_of_nodup hnodup hentry
    have hfits : tree.Fits followLinks directory.path name
        (tree.visit followLinks chain closed directory name node) :=
      fits_visit hopen (hnames _ hentry) hlookup
    obtain ⟨front, back, hfront, hback, rfl⟩ := together_eq_ok_iff.mp h
    rw [List.mem_append, ihrest hopen hrest hback]
    simp only [List.mem_cons, exists_eq_or_imp]
    apply or_congr_left
    -- The first entry is passed, taken or entered; a walk that refuses it fails.
    dsimp only [first, path] at hfront
    split at hfront
    · next hvisit =>
      obtain rfl := Except.ok.inj hfront
      rw [hvisit] at hfits
      simp only [List.not_mem_nil, false_iff]
      rintro ⟨names, -, -, hleads⟩
      exact hfits names hleads
    · next hvisit =>
      obtain rfl := Except.ok.inj hfront
      rw [hvisit] at hfits
      obtain ⟨content, hshows⟩ := hfits
      rw [foundAt_iff_of_file hshows, List.mem_singleton]
    · contradiction
    · next location inner hvisit =>
      rw [hvisit] at hfits
      obtain ⟨hshows, hopens⟩ := hfits
      split at hfront
      · next hdepth =>
        obtain rfl := Except.ok.inj hfront
        simp only [List.not_mem_nil, false_iff, hdepth]
        exact not_foundAt_of_depth hshows
      · next hdepth =>
        split at hfront
        · contradiction
        · next hsize =>
          have hinner := hopens (Nat.not_lt.mp hsize)
          rw [ihinner location inner hvisit hinner (fun _ hmem => hmem) hfront,
            foundAt_iff_of_directory hshows hinner.lookup hdepth]

theorem exists_isOpen_of_isDirectory {path : FilePath} (h : tree.isDirectory path = true) :
    ∃ location entries, tree.IsOpen ⟨path, location⟩ entries := by
  obtain ⟨entries, hlookup⟩ := isDirectory_iff.mp h
  obtain ⟨location, hlocate, hnode⟩ := lookup_eq_ok_iff.mp hlookup
  exact ⟨location, entries, hlocate, hnode⟩

theorem walk_of_isOpen {maxDepth : Option Nat} {directory : OpenDirectory}
    {entries : List (String × FileNode)} (hopen : tree.IsOpen directory entries) :
    tree.walk followLinks maxDepth directory.path =
      if maxDepth = some 0 then .ok []
      else tree.walkEntries followLinks [directory]
        ((directoriesIn [] tree.root).erase directory.location) (maxDepth.map (· - 1)) directory []
        entries := by
  unfold walk
  rw [hopen.locate]
  dsimp only
  rw [hopen.lists]

/-- A walk that reports no failure finds the regular files that names lead to, as far down as
it looks. -/
theorem mem_walk_iff {maxDepth : Option Nat} {path : FilePath} {found : List FoundFile}
    (hw : tree.WellFormed) (hdirectory : tree.isDirectory path = true)
    (h : tree.walk followLinks maxDepth path = .ok found) (file : FoundFile) :
    file ∈ found ↔ ∃ names, file = ⟨path.joinAll names, names⟩ ∧
      Within maxDepth names.length ∧ tree.LeadsToFile followLinks path names := by
  obtain ⟨location, entries, hopen⟩ := exists_isOpen_of_isDirectory hdirectory
  rw [walk_of_isOpen hopen] at h
  split at h
  · next hdepth =>
    obtain rfl := Except.ok.inj h
    simp only [List.not_mem_nil, false_iff]
    rintro ⟨names, -, hwithin, hleads⟩
    exact hleads.ne_nil (List.length_eq_zero_iff.mp (Nat.le_zero.mp (hwithin 0 hdepth)))
  · next hdepth =>
    rw [mem_walkEntries_iff hw hopen (fun _ hmem => hmem) h]
    unfold FoundAt
    simp only [within_pred_iff hdepth]
    constructor
    · rintro ⟨entry, -, rest, rfl, hwithin, hleads⟩
      exact ⟨entry.1 :: rest, rfl, hwithin, hleads⟩
    · rintro ⟨names, rfl, hwithin, hleads⟩
      obtain ⟨entry, hentry, rest, rfl⟩ := hleads.exists_entry hopen.lookup
      exact ⟨entry, hentry, rest, rfl, hwithin, hleads⟩

end FileTree

namespace FileNode

mutual

/-- How many bytes the names take that lead to the deepest directory, with a slash before each. -/
def span : FileNode → Nat
  | directory entries => spanAmong entries
  | _ => 0

def spanAmong : List (String × FileNode) → Nat
  | [] => 0
  | (name, node) :: rest =>
    max (if node.isDirectory then name.utf8ByteSize + 1 + span node else 0) (spanAmong rest)

end

end FileNode

namespace FileTree

variable {tree : FileTree}

/-- Without following links, a walk has nothing to refuse but a directory whose path is too
long. -/
theorem exists_walkEntries_eq_ok {chain : List OpenDirectory} {closed : List Location}
    {depth : Option Nat} {directory : OpenDirectory} {below : List String}
    {entries : List (String × FileNode)}
    (h : directory.path.byteSize + FileNode.spanAmong entries ≤ maxPathBytes) : ∃ found,
      tree.walkEntries false chain closed depth directory below entries = .ok found := by
  fun_induction walkEntries tree false chain closed depth directory below entries with
  | case1 => exact ⟨[], rfl⟩
  | case2 chain closed depth directory below name node rest path first =>
    rename_i ihinner ihrest
    rw [FileNode.spanAmong] at h
    obtain ⟨back, hback⟩ := ihrest (by omega)
    have hfirst : ∃ front, first = .ok front := by
      cases node with
      | file content => exact ⟨_, rfl⟩
      | link target => exact ⟨_, rfl⟩
      | directory inner =>
        have hpath : path.byteSize + FileNode.spanAmong inner ≤ maxPathBytes := by
          have hjoin : path.byteSize ≤ directory.path.byteSize + (name.utf8ByteSize + 1) :=
            directory.path.byteSize_join_le name
          rw [FileNode.isDirectory, if_pos rfl, FileNode.span] at h
          omega
        dsimp only [first, visit]
        split
        · exact ⟨_, rfl⟩
        · rw [dif_neg (by omega)]
          exact ihinner _ _ rfl hpath
    obtain ⟨front, hfront⟩ := hfirst
    exact ⟨front ++ back, together_eq_ok_iff.mpr ⟨front, back, hfront, hback, rfl⟩⟩

theorem exists_walk_eq_ok {path : FilePath} {entries : List (String × FileNode)}
    (h : tree.lookup path = .ok (.directory entries))
    (hspan : path.byteSize + (FileNode.directory entries).span ≤ maxPathBytes)
    (maxDepth : Option Nat) : ∃ found, tree.walk false maxDepth path = .ok found := by
  obtain ⟨location, hlocate, hdirectory⟩ := lookup_eq_ok_iff.mp h
  have hopen : tree.IsOpen ⟨path, location⟩ entries := ⟨hlocate, hdirectory⟩
  rw [walk_of_isOpen hopen]
  split
  · exact ⟨[], rfl⟩
  · exact exists_walkEntries_eq_ok hspan

end FileTree

namespace FileNode

def burrow (entries : List (String × FileNode)) : List String → List (String × FileNode)
  | [] => entries
  | name :: rest => [(name, directory (burrow entries rest))]

variable {entries : List (String × FileNode)} {names : List String}

theorem wellFormed_burrow (h : (directory entries).WellFormed)
    (hnames : ∀ name ∈ names, IsEntryName name) : (directory (burrow entries names)).WellFormed := by
  induction names with
  | nil => exact h
  | cons name rest ih =>
    obtain ⟨hname, hrest⟩ := List.forall_mem_cons.mp hnames
    exact ⟨List.pairwise_singleton _ _, hname, ih hrest, trivial⟩

theorem spanAmong_burrow :
    spanAmong (burrow entries names) = spanOfNames names + spanAmong entries := by
  induction names with
  | nil => simp [burrow, spanOfNames]
  | cons name rest ih =>
    simp only [burrow, spanAmong, span, isDirectory, if_true, ih, spanOfNames]
    omega

end FileNode

namespace FileTree

variable {tree : FileTree} {followLinks : Bool}

theorem LeadsToFile.exists_eq_cons {path : FilePath} {name : String} {node : FileNode}
    {names : List String} (h : tree.LeadsToFile followLinks path names)
    (hlookup : tree.lookup path = .ok (.directory [(name, node)])) :
    ∃ rest, names = name :: rest := by
  obtain ⟨entry, hentry, rest, rfl⟩ := h.exists_entry hlookup
  obtain rfl := List.mem_singleton.mp hentry
  exact ⟨rest, rfl⟩

theorem leadsToFile_burrow_iff {path : FilePath} {names below : List String} {last : String}
    {content : ByteArray} (hw : tree.WellFormed)
    (hlookup : tree.lookup path =
      .ok (.directory (FileNode.burrow [(last, .file content)] names)))
    (hsize : path.byteSize + spanOfNames names ≤ maxPathBytes) :
    tree.LeadsToFile followLinks path below ↔ below = names ++ [last] := by
  induction names generalizing path below with
  | nil =>
    have hshows : tree.Shows followLinks path last (.file content) :=
      .itself ⟨_, hlookup, List.lookup_cons_self⟩ rfl
    constructor
    · intro hleads
      obtain ⟨rest, rfl⟩ := hleads.exists_eq_cons hlookup
      rw [(leadsToFile_cons_iff_of_file hshows).mp hleads, List.nil_append]
    · rintro rfl
      exact .file hshows
  | cons name rest ih =>
    rw [spanOfNames] at hsize
    have hjoin : (path.join name).byteSize ≤ path.byteSize + (name.utf8ByteSize + 1) :=
      path.byteSize_join_le name
    have hlists : tree.Lists path name
        (.directory (FileNode.burrow [(last, .file content)] rest)) :=
      ⟨_, hlookup, List.lookup_cons_self⟩
    have hinner := hlists.lookup_join hw rfl (by omega)
    constructor
    · intro hleads
      obtain ⟨more, rfl⟩ := hleads.exists_eq_cons hlookup
      rw [leadsToFile_cons_iff_of_directory (.itself hlists rfl)] at hleads
      rw [(ih hinner (by omega)).mp hleads, List.cons_append]
    · rintro rfl
      exact .deeper (.itself hlists rfl) ((ih hinner (by omega)).mpr rfl)

end FileTree
end DocumentQuery
