import DocumentQuery.Proofs.Json.Entries
import DocumentQuery.Proofs.Source.Trees
import DocumentQuery.Source.FileTree.Changes

/-!
# Changes keep trees well-formed

A change puts a node under a name that a lookup has accepted, into entries that are sorted by
name. So names stay usable and none comes twice, and every tree that is made by changes is
well-formed.
-/

namespace DocumentQuery

namespace FilePath

theorem noSlash_of_mem_piecesOf (cs : List Char) : ∀ piece ∈ piecesOf cs, '/' ∉ piece := by
  fun_induction piecesOf cs with
  | case1 => simp
  | case2 rest ih => simpa using ih
  | case3 c rest hc piece pieces hpieces ih =>
    rw [hpieces, List.forall_mem_cons] at ih
    obtain ⟨hpiece, hrest⟩ := ih
    refine List.forall_mem_cons.mpr ⟨?_, hrest⟩
    intro hmem
    rcases List.mem_cons.mp hmem with heq | hin
    · exact hc heq.symm
    · exact hpiece hin
  | case4 c rest hc hpieces ih => exact absurd hpieces (piecesOf_ne_nil rest)

theorem noSlash_of_mem_pieces {path : FilePath} : ∀ piece ∈ path.pieces, '/' ∉ piece.toList := by
  intro piece hpiece
  obtain ⟨cs, hcs, rfl⟩ := List.mem_map.mp hpiece
  simpa using noSlash_of_mem_piecesOf path.text.toList cs hcs

end FilePath

namespace FileNode

mutual

/-- Every directory inside has its entries sorted, under names that an entry can have. -/
def Tidy : FileNode → Prop
  | directory entries => Entries.Sorted entries ∧ TidyEntries entries
  | _ => True

def TidyEntries : List (String × FileNode) → Prop
  | [] => True
  | (name, node) :: rest => IsEntryName name ∧ Tidy node ∧ TidyEntries rest

end

theorem tidyEntries_iff {entries : List (String × FileNode)} :
    TidyEntries entries ↔ ∀ entry ∈ entries, IsEntryName entry.1 ∧ entry.2.Tidy := by
  induction entries with
  | nil => simp [TidyEntries]
  | cons entry rest ih => simp [TidyEntries, ih, and_assoc]

mutual

theorem Tidy.wellFormed {node : FileNode} (h : node.Tidy) : node.WellFormed := by
  cases node with
  | directory entries =>
    obtain ⟨hsorted, hentries⟩ := h
    refine ⟨?_, wellFormedEntries_of_tidyEntries hentries⟩
    rw [List.Nodup, List.pairwise_map]
    apply List.Pairwise.imp _ hsorted
    intro a b hlt
    exact String.ne_of_lt hlt
  | file content => trivial
  | link target => trivial

theorem wellFormedEntries_of_tidyEntries {entries : List (String × FileNode)}
    (h : TidyEntries entries) : WellFormedEntries entries := by
  cases entries with
  | nil => trivial
  | cons entry rest =>
    obtain ⟨hname, hnode, hrest⟩ := h
    exact ⟨hname, hnode.wellFormed, wellFormedEntries_of_tidyEntries hrest⟩

end

section Changes

variable {node new : FileNode} {entries : List (String × FileNode)} {name : String}
  {location : Location}

theorem Tidy.insert (h : (directory entries).Tidy) (hname : IsEntryName name) (hnew : new.Tidy) :
    (directory (Entries.insert name new entries)).Tidy := by
  obtain ⟨hsorted, hentries⟩ := h
  refine ⟨Entries.sorted_insert hsorted, tidyEntries_iff.mpr ?_⟩
  intro entry hentry
  rcases Entries.eq_or_mem_of_mem_insert hentry with rfl | hmem
  · exact ⟨hname, hnew⟩
  · exact tidyEntries_iff.mp hentries entry hmem

theorem Tidy.put (h : node.Tidy) (hnew : new.Tidy)
    (hnames : ∀ name ∈ location, IsEntryName name) : (node.put new location).Tidy := by
  induction location generalizing node with
  | nil => exact hnew
  | cons name rest ih =>
    obtain ⟨hname, hrest⟩ := List.forall_mem_cons.mp hnames
    cases node with
    | file content => exact h
    | link target => exact h
    | directory entries =>
      unfold FileNode.put
      dsimp only
      split
      · exact h.insert hname hnew
      · split
        · next inner hinner =>
          obtain ⟨-, htidy⟩ := tidyEntries_iff.mp h.2 _ (mem_of_lookup hinner)
          exact h.insert hname (ih htidy hrest)
        · exact h

theorem Tidy.drop (h : node.Tidy) (hnames : ∀ name ∈ location, IsEntryName name) :
    (node.drop location).Tidy := by
  induction location generalizing node with
  | nil => exact h
  | cons name rest ih =>
    obtain ⟨hname, hrest⟩ := List.forall_mem_cons.mp hnames
    cases node with
    | file content => exact h
    | link target => exact h
    | directory entries =>
      unfold FileNode.drop
      dsimp only
      split
      · refine ⟨List.Pairwise.filter _ h.1, tidyEntries_iff.mpr ?_⟩
        intro entry hentry
        exact tidyEntries_iff.mp h.2 entry (List.mem_filter.mp hentry).1
      · split
        · next inner hinner =>
          obtain ⟨-, htidy⟩ := tidyEntries_iff.mp h.2 _ (mem_of_lookup hinner)
          exact h.insert hname (ih htidy hrest)
        · exact h

end Changes

end FileNode

namespace FileTree

variable {tree next : FileTree}

structure Tidy (tree : FileTree) : Prop where
  root : tree.root.Tidy
  home : ∀ name ∈ tree.home, IsEntryName name

theorem isEntryName_of_locateFrom {last : LastName} {links : Nat} {here location : Location}
    {pieces : List String} (h : tree.locateFrom last links here pieces = .ok location)
    (hhere : ∀ name ∈ here, IsEntryName name)
    (hpieces : ∀ piece ∈ pieces, '/' ∉ piece.toList) :
    ∀ name ∈ location, IsEntryName name := by
  have below : ∀ {here : Location} {piece : String}, (∀ name ∈ here, IsEntryName name) →
      ¬ (piece = "" ∨ piece = ".") → piece ≠ ".." → ¬ maxNameBytes < piece.utf8ByteSize →
        '/' ∉ piece.toList → ∀ name ∈ here ++ [piece], IsEntryName name := by
    intro here piece hhere hspecial hparent hshort hslash name hname
    obtain ⟨hempty, hcurrent⟩ := not_or.mp hspecial
    rcases List.mem_append.mp hname with hmem | hlast
    · exact hhere name hmem
    · obtain rfl := List.mem_singleton.mp hlast
      exact ⟨⟨hempty, hcurrent, hparent, Nat.not_lt.mp hshort⟩, hslash⟩
  fun_induction locateFrom tree last links here pieces with
  | case1 links here =>
    obtain rfl := Except.ok.inj h
    exact hhere
  | case2 links here piece rest entries hdirectory hpiece ih =>
    exact ih h hhere (List.forall_mem_cons.mp hpieces).2
  | case3 links here rest entries hdirectory _ ih =>
    refine ih h ?_ (List.forall_mem_cons.mp hpieces).2
    intro name hname
    exact hhere name (List.dropLast_subset here hname)
  | case5 links here piece rest entries hdirectory hspecial hparent hshort hentry hcreatable =>
    obtain rfl := Except.ok.inj h
    exact below hhere hspecial hparent hshort (hpieces piece List.mem_cons_self)
  | case7 links here piece rest entries hdirectory hspecial hparent hshort target hentry hlast =>
    obtain rfl := Except.ok.inj h
    exact below hhere hspecial hparent hshort (hpieces piece List.mem_cons_self)
  | case10 here piece rest entries hdirectory hspecial hparent hshort target hentry hlast links
      htarget path ih =>
    apply ih h
    · split
      · simp
      · exact hhere
    · intro inner hinner
      rcases List.mem_append.mp hinner with htarget | hrest
      · exact FilePath.noSlash_of_mem_pieces inner htarget
      · exact hpieces inner (List.mem_cons_of_mem _ hrest)
  | case11 links here piece rest entries hdirectory hspecial hparent hshort node hnode hentry ih =>
    obtain ⟨hslash, hrest⟩ := List.forall_mem_cons.mp hpieces
    exact ih h (below hhere hspecial hparent hshort hslash) hrest
  | _ => contradiction

theorem Tidy.isEntryName_of_locate (h : tree.Tidy) {last : LastName} {path : FilePath}
    {location : Location} (hlocate : tree.locate last path = .ok location) :
    ∀ name ∈ location, IsEntryName name := by
  obtain ⟨-, -, hlocated⟩ := locate_eq_ok_iff.mp hlocate
  apply isEntryName_of_locateFrom hlocated
  · unfold startOf
    split
    · simp
    · exact h.home
  · exact FilePath.noSlash_of_mem_pieces

theorem Tidy.put (h : tree.Tidy) (new : FileNode) (hnew : new.Tidy) {last : LastName}
    {path : FilePath} {location : Location} (hlocate : tree.locate last path = .ok location) :
    Tidy { tree with root := tree.root.put new location } :=
  ⟨h.root.put hnew (h.isEntryName_of_locate hlocate), h.home⟩

theorem Tidy.writeFile (h : tree.Tidy) {path : FilePath} {content : ByteArray}
    (hnext : tree.writeFile path content = some next) : next.Tidy := by
  unfold FileTree.writeFile at hnext
  split at hnext
  · next location hlocate =>
    split at hnext
    · contradiction
    · obtain rfl := Option.some.inj hnext
      exact h.put (.file content) trivial hlocate
  · contradiction

theorem Tidy.makeDirectory (h : tree.Tidy) {path : FilePath}
    (hnext : tree.makeDirectory path = some next) : next.Tidy := by
  unfold FileTree.makeDirectory at hnext
  split at hnext
  · obtain rfl := Option.some.inj hnext
    exact h
  · split at hnext
    · next location _ hlocate =>
      obtain rfl := Option.some.inj hnext
      exact h.put (.directory []) ⟨List.Pairwise.nil, trivial⟩ hlocate
    · contradiction

theorem Tidy.makeLink (h : tree.Tidy) {path : FilePath} {target : String}
    (hnext : tree.makeLink path target = some next) : next.Tidy := by
  unfold FileTree.makeLink at hnext
  split at hnext
  · contradiction
  · split at hnext
    · next location _ hlocate =>
      obtain rfl := Option.some.inj hnext
      exact h.put (.link target) trivial hlocate
    · contradiction

theorem Tidy.remove (h : tree.Tidy) {path : FilePath} (hnext : tree.remove path = some next) :
    next.Tidy := by
  unfold FileTree.remove at hnext
  split at hnext
  · next location hlocate =>
    obtain rfl := Option.some.inj hnext
    exact ⟨h.root.drop (h.isEntryName_of_locate hlocate), h.home⟩
  · contradiction

/-- Trees that are made from the empty one by changes. -/
inductive Made : FileTree → Prop
  | empty : Made empty
  | writeFile {tree next : FileTree} {path : FilePath} {content : ByteArray} (h : Made tree)
      (hnext : tree.writeFile path content = some next) : Made next
  | makeDirectory {tree next : FileTree} {path : FilePath} (h : Made tree)
      (hnext : tree.makeDirectory path = some next) : Made next
  | makeLink {tree next : FileTree} {path : FilePath} {target : String} (h : Made tree)
      (hnext : tree.makeLink path target = some next) : Made next
  | remove {tree next : FileTree} {path : FilePath} (h : Made tree)
      (hnext : tree.remove path = some next) : Made next

theorem tidy_empty : Tidy empty := by
  have hhome : IsEntryName "home" :=
    ⟨⟨by decide, by decide, by decide, by decide +kernel⟩, by decide⟩
  refine ⟨⟨List.pairwise_singleton _ _, hhome, ⟨List.Pairwise.nil, trivial⟩, trivial⟩, ?_⟩
  intro name hname
  obtain rfl := List.mem_singleton.mp hname
  exact hhome

theorem Made.tidy (h : Made tree) : tree.Tidy := by
  induction h with
  | empty => exact tidy_empty
  | writeFile _ hnext ih => exact ih.writeFile hnext
  | makeDirectory _ hnext ih => exact ih.makeDirectory hnext
  | makeLink _ hnext ih => exact ih.makeLink hnext
  | remove _ hnext ih => exact ih.remove hnext

theorem Made.wellFormed (h : Made tree) : tree.WellFormed := h.tidy.root.wellFormed

end FileTree
end DocumentQuery
