import DocumentQuery.Source.FileTree

/-!
# Entries of a tree and their paths

A tree is well-formed if every directory in it lists names that an entry can have, and
none of them twice. Then the path of an entry, made of the path of its directory and its
name, leads to the entry, and it has the components of the directory and one more.
-/

namespace DocumentQuery

structure IsName (piece : String) : Prop where
  ne_empty : piece ≠ ""
  ne_current : piece ≠ "."
  ne_parent : piece ≠ ".."
  short : piece.utf8ByteSize ≤ FileTree.maxNameBytes

structure IsEntryName (name : String) : Prop extends IsName name where
  noSlash : '/' ∉ name.toList

theorem isEntryName_iff {name : String} : IsEntryName name ↔
    (name ≠ "" ∧ name ≠ "." ∧ name ≠ "..") ∧ name.utf8ByteSize ≤ FileTree.maxNameBytes ∧
      '/' ∉ name.toList := by
  constructor
  · intro h
    exact ⟨⟨h.ne_empty, h.ne_current, h.ne_parent⟩, h.short, h.noSlash⟩
  · rintro ⟨⟨hempty, hcurrent, hparent⟩, hshort, hslash⟩
    exact ⟨⟨hempty, hcurrent, hparent, hshort⟩, hslash⟩

instance : DecidablePred IsEntryName := fun _ => decidable_of_iff _ isEntryName_iff.symm

namespace FilePath

theorem piecesOf_ne_nil (cs : List Char) : piecesOf cs ≠ [] := by
  fun_cases piecesOf cs <;> simp_all

theorem piecesOf_append_slash (cs ds : List Char) :
    piecesOf (cs ++ '/' :: ds) = piecesOf cs ++ piecesOf ds := by
  fun_induction piecesOf cs with
  | case1 => rfl
  | case2 rest ih => simp [piecesOf, ih]
  | case3 c rest hc piece pieces hpieces ih =>
    rw [hpieces] at ih
    simp [piecesOf, ih]
  | case4 c rest hc hpieces ih => exact absurd hpieces (piecesOf_ne_nil rest)

theorem piecesOf_of_noSlash {cs : List Char} (h : '/' ∉ cs) : piecesOf cs = [cs] := by
  induction cs with
  | nil => rfl
  | cons c cs ih =>
    obtain ⟨hc, hcs⟩ := List.ne_and_not_mem_of_not_mem_cons h
    simp [piecesOf, hc.symm, ih hcs]

theorem isAbsolute_iff {path : FilePath} :
    path.isAbsolute = true ↔ ∃ rest, path.text.toList = '/' :: rest := by
  simp only [isAbsolute, String.startsWith_string_iff]
  constructor
  · rintro ⟨rest, hrest⟩
    exact ⟨rest, hrest.symm⟩
  · rintro ⟨rest, hrest⟩
    exact ⟨rest, hrest.symm⟩

theorem pieces_append_slash (start rest : String) :
    (FilePath.mk (start ++ "/" ++ rest)).pieces =
      (FilePath.mk start).pieces ++ (FilePath.mk rest).pieces := by
  have hchars : (start ++ "/" ++ rest).toList = start.toList ++ '/' :: rest.toList := by simp
  simp only [pieces, hchars, piecesOf_append_slash, List.map_append]

theorem pieces_of_noSlash {name : String} (h : '/' ∉ name.toList) :
    (FilePath.mk name).pieces = [name] := by
  simp [pieces, piecesOf_of_noSlash h]

/-- The text of the path of an entry: a slash stands between the two parts, and if the first
part ends in one, that one is taken. -/
theorem exists_text_join {path : FilePath} (hpath : path.text ≠ "") (name : String) :
    ∃ start, (path.join name).text = start ++ "/" ++ name ∧
      (path.text = start ∨ path.text = start ++ "/") := by
  unfold join
  by_cases hslash : path.text.endsWith "/" = true
  · rw [if_pos (Or.inr hslash)]
    rw [← String.endsWith_toSlice, String.Slice.endsWith_string_iff] at hslash
    obtain ⟨start, hstart⟩ := hslash
    have htext : path.text = String.ofList start ++ "/" := by
      apply String.toList_injective
      simpa using hstart.symm
    exact ⟨String.ofList start, by rw [htext], Or.inr htext⟩
  · rw [if_neg (by simp [hpath, hslash])]
    exact ⟨path.text, rfl, Or.inl rfl⟩

variable {path : FilePath} {name : String}

/-- The pieces of the path of an entry are those of its directory and the name; an empty piece
at the end of the former is left out. -/
theorem exists_pieces_join (hpath : path.text ≠ "") (hname : '/' ∉ name.toList) :
    ∃ front, (path.join name).pieces = front ++ [name] ∧ front ≠ [] ∧
      (path.pieces = front ∨ path.pieces = front ++ [""]) := by
  obtain ⟨start, htext, hstart⟩ := exists_text_join hpath name
  refine ⟨(FilePath.mk start).pieces, ?_, ?_, ?_⟩
  · rw [← pieces_of_noSlash hname, ← pieces_append_slash, ← htext]
  · simp [pieces, piecesOf_ne_nil]
  · rcases hstart with h | h
    · exact Or.inl (congrArg (fun text => (FilePath.mk text).pieces) h)
    · refine Or.inr ?_
      have hpieces := pieces_append_slash start ""
      rw [String.append_empty, ← h] at hpieces
      exact hpieces

theorem isAbsolute_join (hpath : path.text ≠ "") (name : String) :
    (path.join name).isAbsolute = path.isAbsolute := by
  obtain ⟨start, htext, hstart⟩ := exists_text_join hpath name
  rw [Bool.eq_iff_iff, isAbsolute_iff, isAbsolute_iff, htext]
  cases hchars : start.toList with
  | nil => rcases hstart with h | h <;> simp_all
  | cons c rest => rcases hstart with h | h <;> simp [h, hchars]

theorem byteSize_join_le (path : FilePath) (name : String) :
    (path.join name).byteSize ≤ path.byteSize + (name.utf8ByteSize + 1) := by
  have hslash : "/".utf8ByteSize = 1 := rfl
  unfold join byteSize
  split
  · rw [String.utf8ByteSize_append]
    omega
  · rw [String.utf8ByteSize_append, String.utf8ByteSize_append, hslash]
    omega

theorem byteSize_join (hpath : path.text ≠ "") (hslash : path.text.endsWith "/" = false)
    (name : String) : (path.join name).byteSize = path.byteSize + (name.utf8ByteSize + 1) := by
  have hsize : "/".utf8ByteSize = 1 := rfl
  rw [join, if_neg (by simp [hpath, hslash]), byteSize, byteSize, String.utf8ByteSize_append,
    String.utf8ByteSize_append, hsize]
  omega

theorem endsWith_slash_join (path : FilePath) (hname : IsEntryName name) :
    (path.join name).text.endsWith "/" = false := by
  obtain ⟨start, htext⟩ : ∃ start, (path.join name).text = start ++ name := by
    unfold join
    split <;> exact ⟨_, rfl⟩
  rw [Bool.eq_false_iff, ne_eq, ← String.endsWith_toSlice, String.Slice.endsWith_string_iff, htext]
  rintro ⟨front, hfront⟩
  have hne : name.toList ≠ [] := by simpa using hname.ne_empty
  have hlast : name.toList.getLast? = some '/' := by
    have hwhole := congrArg List.getLast? hfront
    simpa [List.getLast?_append, List.getLast?_eq_some_getLast hne] using hwhole.symm
  exact hname.noSlash (List.mem_of_getLast? hlast)

theorem text_join_ne_empty (hpath : path.text ≠ "") (name : String) :
    (path.join name).text ≠ "" := by
  obtain ⟨start, htext, -⟩ := exists_text_join hpath name
  intro hempty
  have hchars := congrArg String.toList (htext.symm.trans hempty)
  simp at hchars

theorem components_join (hpath : path.text ≠ "") (hname : IsEntryName name) :
    (path.join name).components = path.components ++ [.name name] := by
  obtain ⟨front, hjoin, hne, hpieces⟩ := exists_pieces_join hpath hname.noSlash
  have hcomponent : componentOf? name = some (.name name) := by
    simp [componentOf?, hname.ne_empty, hname.ne_current, hname.ne_parent]
  have hhead : (front ++ [name]).head? = path.pieces.head? := by
    obtain ⟨first, rest, rfl⟩ := List.exists_cons_of_ne_nil hne
    rcases hpieces with h | h <;> simp [h]
  have hfollowing : path.pieces.filterMap componentOf? = front.filterMap componentOf? := by
    rcases hpieces with h | h
    · rw [h]
    · simp [h, componentOf?]
  unfold components
  rw [isAbsolute_join hpath, hjoin, hhead, List.filterMap_append, hfollowing,
    List.filterMap_cons_some hcomponent, List.filterMap_nil]
  dsimp only
  split
  · rfl
  · split <;> rfl

end FilePath

namespace FileNode

def isLink : FileNode → Bool
  | link _ => true
  | _ => false

mutual

/-- Every directory inside lists names that an entry can have, none of them twice. -/
def WellFormed : FileNode → Prop
  | directory entries => (entries.map Prod.fst).Nodup ∧ WellFormedEntries entries
  | _ => True

def WellFormedEntries : List (String × FileNode) → Prop
  | [] => True
  | (name, node) :: rest => IsEntryName name ∧ WellFormed node ∧ WellFormedEntries rest

end

theorem wellFormedEntries_iff {entries : List (String × FileNode)} :
    WellFormedEntries entries ↔ ∀ entry ∈ entries, IsEntryName entry.1 ∧ entry.2.WellFormed := by
  induction entries with
  | nil => simp [WellFormedEntries]
  | cons entry rest ih => simp [WellFormedEntries, ih, and_assoc]

theorem mem_of_lookup {entries : List (String × FileNode)} {name : String} {node : FileNode}
    (h : entries.lookup name = some node) : (name, node) ∈ entries := by
  obtain ⟨front, back, rfl, -⟩ := List.lookup_eq_some_iff.mp h
  simp

theorem lookup_of_mem_of_nodup {entries : List (String × FileNode)} {name : String}
    {node : FileNode} (hs : (entries.map Prod.fst).Nodup) (h : (name, node) ∈ entries) :
    entries.lookup name = some node := by
  obtain ⟨front, back, rfl⟩ := List.append_of_mem h
  refine List.lookup_eq_some_iff.mpr ⟨front, back, rfl, ?_⟩
  intro entry hentry
  rw [List.map_append, List.map_cons] at hs
  have hne := (List.nodup_append.mp hs).2.2 entry.1 (List.mem_map_of_mem hentry) name (by simp)
  simpa using hne.symm

theorem WellFormed.at? {node inner : FileNode} {location : Location} (h : node.WellFormed)
    (hinner : node.at? location = some inner) : inner.WellFormed := by
  induction location generalizing node with
  | nil =>
    obtain rfl := Option.some.inj hinner
    exact h
  | cons name rest ih =>
    cases node with
    | directory entries =>
      obtain ⟨child, hchild, hrest⟩ := Option.bind_eq_some_iff.mp hinner
      exact ih (wellFormedEntries_iff.mp h.2 _ (mem_of_lookup hchild)).2 hrest
    | file content => contradiction
    | link target => contradiction

theorem at?_append_singleton {node : FileNode} {location : Location}
    {entries : List (String × FileNode)} (h : node.at? location = some (.directory entries))
    (name : String) : node.at? (location ++ [name]) = entries.lookup name := by
  induction location generalizing node with
  | nil =>
    obtain rfl := Option.some.inj h
    simp [FileNode.at?]
  | cons first rest ih =>
    cases node with
    | directory outer =>
      obtain ⟨child, hchild, hrest⟩ := Option.bind_eq_some_iff.mp h
      simp [FileNode.at?, hchild, ih hrest]
    | file content => contradiction
    | link target => contradiction

end FileNode

namespace FileTree

variable {tree : FileTree}

def WellFormed (tree : FileTree) : Prop := tree.root.WellFormed

theorem WellFormed.directory {location : Location} {entries : List (String × FileNode)}
    (h : tree.WellFormed) (hdirectory : tree.node? location = some (.directory entries)) :
    (entries.map Prod.fst).Nodup ∧ ∀ entry ∈ entries, IsEntryName entry.1 := by
  obtain ⟨hnodup, hentries⟩ := FileNode.WellFormed.at? h hdirectory
  refine ⟨hnodup, ?_⟩
  intro entry hentry
  exact (FileNode.wellFormedEntries_iff.mp hentries entry hentry).1

theorem node?_entry {location : Location} {entries : List (String × FileNode)}
    (h : tree.node? location = some (.directory entries)) (name : String) :
    tree.node? (location ++ [name]) = entries.lookup name :=
  FileNode.at?_append_singleton h name

/-- Following pieces of a path from one location to another, links included. Of the links
that are allowed at the start, `left` are still allowed at the end. -/
inductive Follows (tree : FileTree) : Nat → Location → List String → Nat → Location → Prop
  | nil (links : Nat) (here : Location) : Follows tree links here [] links here
  | stay {links left : Nat} {here there : Location} {piece : String} {rest : List String}
      {entries : List (String × FileNode)}
      (hdirectory : tree.node? here = some (.directory entries)) (hpiece : piece = "" ∨ piece = ".")
      (hrest : Follows tree links here rest left there) :
      Follows tree links here (piece :: rest) left there
  | up {links left : Nat} {here there : Location} {rest : List String}
      {entries : List (String × FileNode)}
      (hdirectory : tree.node? here = some (.directory entries))
      (hrest : Follows tree links here.dropLast rest left there) :
      Follows tree links here (".." :: rest) left there
  | down {links left : Nat} {here there : Location} {piece : String} {rest : List String}
      {entries : List (String × FileNode)} {node : FileNode}
      (hdirectory : tree.node? here = some (.directory entries)) (hname : IsName piece)
      (hentry : entries.lookup piece = some node) (hnode : node.isLink = false)
      (hrest : Follows tree links (here ++ [piece]) rest left there) :
      Follows tree links here (piece :: rest) left there
  | link {links left : Nat} {here there : Location} {piece target : String} {rest : List String}
      {entries : List (String × FileNode)}
      (hdirectory : tree.node? here = some (.directory entries)) (hname : IsName piece)
      (hentry : entries.lookup piece = some (.link target)) (htarget : target ≠ "")
      (hrest : Follows tree links (if (FilePath.mk target).isAbsolute then [] else here)
        ((FilePath.mk target).pieces ++ rest) left there) :
      Follows tree (links + 1) here (piece :: rest) left there

section Pieces

variable {last : LastName} {links left : Nat} {here there : Location} {pieces rest : List String}
  {entries : List (String × FileNode)} {name : String} {node : FileNode}

theorem locateFrom_down (hdirectory : tree.node? here = some (.directory entries))
    (hname : IsName name) (hentry : entries.lookup name = some node)
    (hnode : node.isLink = false) :
    tree.locateFrom last links here (name :: rest) =
      tree.locateFrom last links (here ++ [name]) rest := by
  rw [locateFrom, hdirectory]
  dsimp only
  rw [if_neg (by simp [hname.ne_empty, hname.ne_current]), if_neg hname.ne_parent,
    if_neg (Nat.not_lt.mpr hname.short), hentry]
  cases node with
  | link target => contradiction
  | file content => rfl
  | directory inner => rfl

theorem locateFrom_link {target : String}
    (hdirectory : tree.node? here = some (.directory entries)) (hname : IsName name)
    (hentry : entries.lookup name = some (.link target)) (htarget : target ≠ "")
    (hfollowed : ¬ (last = .unfollowed ∧ rest = [])) :
    tree.locateFrom last (links + 1) here (name :: rest) =
      tree.locateFrom last links (if (FilePath.mk target).isAbsolute then [] else here)
        ((FilePath.mk target).pieces ++ rest) := by
  rw [locateFrom, hdirectory]
  dsimp only
  rw [if_neg (by simp [hname.ne_empty, hname.ne_current]), if_neg hname.ne_parent,
    if_neg (Nat.not_lt.mpr hname.short), hentry]
  dsimp only
  rw [if_neg hfollowed, if_neg htarget]

theorem exists_follows_of_locateFrom
    (h : tree.locateFrom .followed links here pieces = .ok there) :
    ∃ left, tree.Follows links here pieces left there := by
  fun_induction locateFrom tree .followed links here pieces with
  | case1 links here =>
    obtain rfl := Except.ok.inj h
    exact ⟨links, .nil links here⟩
  | case2 links here piece rest entries hdirectory hpiece ih =>
    obtain ⟨left, hrest⟩ := ih h
    exact ⟨left, .stay hdirectory hpiece hrest⟩
  | case3 links here rest entries hdirectory _ ih =>
    obtain ⟨left, hrest⟩ := ih h
    exact ⟨left, .up hdirectory hrest⟩
  | case10 here piece rest entries hdirectory hspecial hparent hshort target hentry _ links
      htarget path ih =>
    obtain ⟨hempty, hcurrent⟩ := not_or.mp hspecial
    obtain ⟨left, hrest⟩ := ih h
    have hname : IsName piece := ⟨hempty, hcurrent, hparent, Nat.not_lt.mp hshort⟩
    exact ⟨left, .link hdirectory hname hentry htarget hrest⟩
  | case11 links here piece rest entries hdirectory hspecial hparent hshort node hnode hentry ih =>
    obtain ⟨hempty, hcurrent⟩ := not_or.mp hspecial
    obtain ⟨left, hrest⟩ := ih h
    have hname : IsName piece := ⟨hempty, hcurrent, hparent, Nat.not_lt.mp hshort⟩
    have hlink : node.isLink = false := by
      cases node with
      | link target => exact absurd rfl (hnode target)
      | file content => rfl
      | directory inner => rfl
    exact ⟨left, .down hdirectory hname hentry hlink hrest⟩
  | _ => simp_all

theorem Follows.locateFrom_eq (h : tree.Follows links here pieces left there) :
    tree.locateFrom .followed links here pieces = .ok there := by
  induction h with
  | nil links here => simp [locateFrom]
  | stay hdirectory hpiece hrest ih => simp [locateFrom, hdirectory, hpiece, ih]
  | up hdirectory hrest ih => simp [locateFrom, hdirectory, ih]
  | down hdirectory hname hentry hnode hrest ih =>
    rw [locateFrom_down hdirectory hname hentry hnode, ih]
  | link hdirectory hname hentry htarget hrest ih =>
    rw [locateFrom_link hdirectory hname hentry htarget (by simp), ih]

theorem locateFrom_eq_ok_iff :
    tree.locateFrom .followed links here pieces = .ok there ↔
      ∃ left, tree.Follows links here pieces left there := by
  constructor
  · exact exists_follows_of_locateFrom
  · rintro ⟨left, h⟩
    exact h.locateFrom_eq

theorem Follows.append {reached : Location} {between : Nat}
    (h : tree.Follows links here pieces between reached)
    (hrest : tree.Follows between reached rest left there) :
    tree.Follows links here (pieces ++ rest) left there := by
  induction h with
  | nil links here => exact hrest
  | stay hdirectory hpiece _ ih => exact .stay hdirectory hpiece (ih hrest)
  | up hdirectory _ ih => exact .up hdirectory (ih hrest)
  | down hdirectory hname hentry hnode _ ih =>
    exact .down hdirectory hname hentry hnode (ih hrest)
  | link hdirectory hname hentry htarget _ ih =>
    have hlinked := ih hrest
    rw [List.append_assoc] at hlinked
    exact .link hdirectory hname hentry htarget hlinked

theorem exists_follows_of_append {joined : List String}
    (h : tree.Follows links here joined left there) (hjoined : joined = pieces ++ rest) :
    ∃ between reached, tree.Follows links here pieces between reached ∧
      tree.Follows between reached rest left there := by
  induction h generalizing pieces with
  | nil links here =>
    obtain ⟨rfl, rfl⟩ := List.append_eq_nil_iff.mp hjoined.symm
    exact ⟨links, here, .nil links here, .nil links here⟩
  | stay hdirectory hpiece hbehind ih =>
    rcases List.cons_eq_append_iff.mp hjoined with ⟨rfl, rfl⟩ | ⟨front, rfl, hfront⟩
    · exact ⟨_, _, .nil _ _, .stay hdirectory hpiece hbehind⟩
    · obtain ⟨between, reached, hpieces, hrest⟩ := ih hfront
      exact ⟨between, reached, .stay hdirectory hpiece hpieces, hrest⟩
  | up hdirectory hbehind ih =>
    rcases List.cons_eq_append_iff.mp hjoined with ⟨rfl, rfl⟩ | ⟨front, rfl, hfront⟩
    · exact ⟨_, _, .nil _ _, .up hdirectory hbehind⟩
    · obtain ⟨between, reached, hpieces, hrest⟩ := ih hfront
      exact ⟨between, reached, .up hdirectory hpieces, hrest⟩
  | down hdirectory hname hentry hnode hbehind ih =>
    rcases List.cons_eq_append_iff.mp hjoined with ⟨rfl, rfl⟩ | ⟨front, rfl, hfront⟩
    · exact ⟨_, _, .nil _ _, .down hdirectory hname hentry hnode hbehind⟩
    · obtain ⟨between, reached, hpieces, hrest⟩ := ih hfront
      exact ⟨between, reached, .down hdirectory hname hentry hnode hpieces, hrest⟩
  | link hdirectory hname hentry htarget hbehind ih =>
    rcases List.cons_eq_append_iff.mp hjoined with ⟨rfl, rfl⟩ | ⟨front, rfl, hfront⟩
    · exact ⟨_, _, .nil _ _, .link hdirectory hname hentry htarget hbehind⟩
    · obtain ⟨between, reached, hpieces, hrest⟩ := ih (by rw [hfront, List.append_assoc])
      exact ⟨between, reached, .link hdirectory hname hentry htarget hpieces, hrest⟩

theorem follows_name (hdirectory : tree.node? here = some (.directory entries))
    (hname : IsName name) (hentry : entries.lookup name = some node)
    (hnode : node.isLink = false) :
    tree.Follows links here [name] links (here ++ [name]) :=
  .down hdirectory hname hentry hnode (.nil links (here ++ [name]))

theorem eq_of_follows_empty (h : tree.Follows links here [""] left there) :
    left = links ∧ there = here := by
  generalize hpieces : [""] = pieces at h
  cases h with
  | nil _ _ => contradiction
  | stay _ _ hrest =>
    obtain ⟨-, rfl⟩ := List.cons.inj hpieces
    cases hrest
    exact ⟨rfl, rfl⟩
  | up _ _ => simp at hpieces
  | down _ hname _ _ _ => exact absurd (List.cons.inj hpieces).1.symm hname.ne_empty
  | link _ hname _ _ _ => exact absurd (List.cons.inj hpieces).1.symm hname.ne_empty

end Pieces

section Entries

variable {path : FilePath} {location : Location} {entries : List (String × FileNode)}
  {name : String} {node : FileNode}

theorem locate_eq_ok_iff {last : LastName} : tree.locate last path = .ok location ↔
    path.text ≠ "" ∧ path.byteSize ≤ maxPathBytes ∧
      tree.locateFrom last maxLinks (tree.startOf path) path.pieces = .ok location := by
  unfold locate
  by_cases hempty : path.text = ""
  · simp [hempty]
  · by_cases hlong : maxPathBytes < path.byteSize
    · simp [hempty, hlong, Nat.not_le.mpr hlong]
    · simp [hempty, hlong, Nat.not_lt.mp hlong]

theorem text_ne_empty_of_locate {last : LastName} (h : tree.locate last path = .ok location) :
    path.text ≠ "" :=
  (locate_eq_ok_iff.mp h).1

/-- A path that leads to a place leads there without the empty piece that may be its last. -/
theorem exists_follows_of_locate (h : tree.locate .followed path = .ok location)
    (hname : '/' ∉ name.toList) :
    ∃ front left, (path.join name).pieces = front ++ [name] ∧
      tree.startOf (path.join name) = tree.startOf path ∧
      tree.Follows maxLinks (tree.startOf path) front left location := by
  obtain ⟨hpath, -, hfollowed⟩ := locate_eq_ok_iff.mp h
  obtain ⟨front, hjoin, -, hpieces⟩ := FilePath.exists_pieces_join hpath hname
  have hstart : tree.startOf (path.join name) = tree.startOf path := by
    rw [startOf, startOf, FilePath.isAbsolute_join hpath]
  obtain ⟨left, hfollows⟩ := locateFrom_eq_ok_iff.mp hfollowed
  rcases hpieces with hpieces | hpieces
  · rw [hpieces] at hfollows
    exact ⟨front, left, hjoin, hstart, hfollows⟩
  · obtain ⟨between, reached, hfront, hempty⟩ := exists_follows_of_append hfollows hpieces
    obtain ⟨rfl, rfl⟩ := eq_of_follows_empty hempty
    exact ⟨front, left, hjoin, hstart, hfront⟩

/-- An entry that is no link is where its path leads, unless this path is too long. -/
theorem locate_join (h : tree.locate .followed path = .ok location)
    (hdirectory : tree.node? location = some (.directory entries)) (hname : IsEntryName name)
    (hentry : entries.lookup name = some node) (hnode : node.isLink = false)
    (hsize : (path.join name).byteSize ≤ maxPathBytes) :
    tree.locate .followed (path.join name) = .ok (location ++ [name]) := by
  obtain ⟨front, left, hjoin, hstart, hfront⟩ := exists_follows_of_locate h hname.noSlash
  refine locate_eq_ok_iff.mpr
    ⟨FilePath.text_join_ne_empty (text_ne_empty_of_locate h) name, hsize, ?_⟩
  rw [hjoin, hstart, locateFrom_eq_ok_iff]
  exact ⟨left, hfront.append (follows_name hdirectory hname.toIsName hentry hnode)⟩

end Entries

end FileTree
end DocumentQuery
