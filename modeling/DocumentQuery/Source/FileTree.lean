import DocumentQuery.Source.FilePath

/-!
# Trees of files

A tree of directories, regular files and symbolic links, with a home directory that
relative paths start from. A file path is looked up piece by piece; what it leads to is a
location, which has no links and no dots in it. The system bounds names, paths and the links
on a way. A path that is too long is not looked up at all, but the entries of a directory can
be listed that have no shorter one. Names are texts, so an entry whose name is no text cannot
be stated.
-/

namespace DocumentQuery

inductive FileNode where
  | file (content : ByteArray)
  | link (target : String)
  | directory (entries : List (String × FileNode))

abbrev Location := List String

inductive LookupFault where
  | missing
  | notDirectory
  | tooLong
  | tooManyLinks
deriving DecidableEq

def LookupFault.text : LookupFault → String
  | missing => "No such file or directory (os error 2)"
  | notDirectory => "Not a directory (os error 20)"
  | tooLong => "File name too long (os error 36)"
  | tooManyLinks => "Too many levels of symbolic links (os error 40)"

namespace FileNode

instance : Inhabited FileNode := ⟨directory []⟩

def isFile : FileNode → Bool
  | file _ => true
  | _ => false

def isDirectory : FileNode → Bool
  | directory _ => true
  | _ => false

def at? (node : FileNode) : Location → Option FileNode
  | [] => some node
  | name :: rest =>
    match node with
    | directory entries => (entries.lookup name).bind (·.at? rest)
    | _ => none

end FileNode

structure FileTree where
  root : FileNode
  home : Location

namespace FileTree

inductive LastName where
  /-- It has to be there, and a link is followed. -/
  | followed
  /-- It has to be there, and a link is taken itself. -/
  | unfollowed
  /-- It may be missing, if the directory that would hold it is there. -/
  | creatable
deriving DecidableEq

def maxLinks : Nat := 40

def maxNameBytes : Nat := 255

/-- How many bytes a path may have that is looked up or opened. -/
def maxPathBytes : Nat := 4095

variable (tree : FileTree)

def node? (location : Location) : Option FileNode := tree.root.at? location

def startOf (path : FilePath) : Location := if path.isAbsolute then [] else tree.home

/-- Follows pieces of a path from a location, with `links` links still allowed. An empty
piece and `.` ask for a directory, `..` goes up, and a name goes down; the pieces of a
link's target take the place of its name. -/
def locateFrom (last : LastName) (links : Nat) (here : Location) :
    List String → Except LookupFault Location
  | [] => .ok here
  | piece :: rest =>
    match tree.node? here with
    | some (.directory entries) =>
      if piece = "" ∨ piece = "." then locateFrom last links here rest
      else if piece = ".." then locateFrom last links here.dropLast rest
      else if maxNameBytes < piece.utf8ByteSize then .error .tooLong
      else
        match entries.lookup piece with
        | none =>
          if last = .creatable ∧ rest = [] then .ok (here ++ [piece]) else .error .missing
        | some (.link target) =>
          if last = .unfollowed ∧ rest = [] then .ok (here ++ [piece])
          else
            match links with
            | 0 => .error .tooManyLinks
            | links + 1 =>
              if target = "" then .error .missing
              else
                let path : FilePath := ⟨target⟩
                locateFrom last links (if path.isAbsolute then [] else here) (path.pieces ++ rest)
        | some _ => locateFrom last links (here ++ [piece]) rest
    | _ => .error .notDirectory
termination_by pieces => (links, pieces.length)

def locate (last : LastName) (path : FilePath) : Except LookupFault Location :=
  if path.text = "" then .error .missing
  else if maxPathBytes < path.byteSize then .error .tooLong
  else tree.locateFrom last maxLinks (tree.startOf path) path.pieces

def lookup (path : FilePath) : Except LookupFault FileNode := do
  let location ← tree.locate .followed path
  match tree.node? location with
  | some node => .ok node
  | none => .error .missing

def isFile (path : FilePath) : Bool :=
  match tree.lookup path with
  | .ok node => node.isFile
  | .error _ => false

def isDirectory (path : FilePath) : Bool :=
  match tree.lookup path with
  | .ok node => node.isDirectory
  | .error _ => false

end FileTree
end DocumentQuery
