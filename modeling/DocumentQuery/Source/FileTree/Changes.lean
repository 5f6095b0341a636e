import DocumentQuery.Json.Entries
import DocumentQuery.Source.FileTree

/-!
# Changes of a file tree

Each change either gives the changed tree or, where it is impossible, nothing.
-/

namespace DocumentQuery
namespace FileNode

/-- Puts a node at a location below a node; nothing happens if the directory that is to
hold it is not there. -/
def put (node new : FileNode) : Location → FileNode
  | [] => new
  | name :: rest =>
    match node with
    | directory entries =>
      if rest.isEmpty then directory (Entries.insert name new entries)
      else
        match entries.lookup name with
        | some inner => directory (Entries.insert name (inner.put new rest) entries)
        | none => node
    | _ => node

def drop (node : FileNode) : Location → FileNode
  | [] => node
  | name :: rest =>
    match node with
    | directory entries =>
      if rest.isEmpty then directory (entries.filter (·.1 ≠ name))
      else
        match entries.lookup name with
        | some inner => directory (Entries.insert name (inner.drop rest) entries)
        | none => node
    | _ => node

end FileNode

def FilePath.ancestors (path : FilePath) : List FilePath :=
  let pieces := path.pieces
  (List.range (pieces.length - 1)).map fun n => ⟨"/".intercalate (pieces.take (n + 1))⟩

namespace FileTree

variable (tree : FileTree)

def empty : FileTree where
  root := .directory [("home", .directory [])]
  home := ["home"]

def writeFile (path : FilePath) (content : ByteArray) : Option FileTree :=
  match tree.locate .creatable path with
  | .ok location =>
    match tree.node? location with
    | some (.directory _) => none
    | _ => some { tree with root := tree.root.put (.file content) location }
  | .error _ => none

/-- Makes the directory a path names, unless it is there; its own parent has to be. -/
def makeDirectory (path : FilePath) : Option FileTree :=
  if tree.isDirectory path then some tree
  else
    match tree.locate .unfollowed path, tree.locate .creatable path with
    | .error .missing, .ok location =>
      some { tree with root := tree.root.put (.directory []) location }
    | _, _ => none

def makeDirectories (paths : List FilePath) : Option FileTree :=
  (paths.filter (·.text ≠ "")).foldlM makeDirectory tree

def makeLink (path : FilePath) (target : String) : Option FileTree :=
  if target = "" ∨ maxPathBytes < target.utf8ByteSize then none
  else
    match tree.locate .unfollowed path, tree.locate .creatable path with
    | .error .missing, .ok location =>
      some { tree with root := tree.root.put (.link target) location }
    | _, _ => none

/-- Removes what a path names: a file, a link itself, or a directory with its contents. -/
def remove (path : FilePath) : Option FileTree :=
  match tree.locate .unfollowed path with
  | .ok location => some { tree with root := tree.root.drop location }
  | .error _ => none

end FileTree
end DocumentQuery
