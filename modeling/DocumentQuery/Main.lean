import DocumentQuery.Command.Arguments
import DocumentQuery.Command.Outcome
import DocumentQuery.Source.FileTree.Changes

/-!
# The program

Takes a picture of the files that the command line names, runs the invocation on it, and
prints what comes of it.
-/

namespace DocumentQuery
namespace Program

/-- The targets of the links in a node. -/
partial def linkTargets : FileNode → List String
  | .file _ => []
  | .link target => [target]
  | .directory entries => entries.flatMap fun entry => linkTargets entry.2

/-- The place a path leads to, free of links; empty if it leads nowhere. -/
def realPlace (path : String) : IO String := do
  try
    return (← IO.FS.realPath ((← IO.currentDir) / path)).toString
  catch _ => return ""

/-- A node of the file system. A link gets the place it leads to as its target, and the
contents of files that are not wanted stay empty. -/
partial def loadNode (wanted : FilePath → Bool) (path : String) : IO FileNode := do
  let place := (← IO.currentDir) / path
  match (← place.symlinkMetadata).type with
  | .dir =>
    let entries ← (← place.readDir).toList.mapM fun entry => do
      return (entry.fileName, ← loadNode wanted (place / entry.fileName).toString)
    return .directory (Entries.ofPairs entries)
  | .file => return .file (← if wanted ⟨path⟩ then IO.FS.readBinFile place else pure .empty)
  | .symlink => return .link (← realPlace path)
  | .other => return .link ""

def place (tree : FileTree) (path : String) (node : FileNode) : FileTree :=
  let location := (FilePath.mk path).pieces.filter (· ≠ "")
  let tree := (tree.makeDirectories (FilePath.mk path).ancestors).getD tree
  { tree with root := tree.root.put node location }

/-- Takes in the nodes at places that are free of links, and what their links lead to if
links are followed. -/
partial def takeIn (resolver : Resolver) (tree : FileTree) (seen : List String) :
    List String → IO FileTree
  | [] => return tree
  | path :: rest => do
    if path = "" || seen.contains path then takeIn resolver tree seen rest
    else
      let wanted (file : FilePath) := file.text = path || resolver.hasWantedExtension file
      let node ← loadNode wanted path
      let targets := if resolver.followLinks then linkTargets node else []
      takeIn resolver (place tree path node) (path :: seen) (targets ++ rest)

def takeInPath (resolver : Resolver) (tree : FileTree) (path : FilePath) : IO FileTree := do
  let mut tree := tree
  for above in (path.ancestors ++ [path]).filter (·.text ≠ "") do
    let here := (← IO.currentDir) / above.text
    let isLink ← try pure ((← here.symlinkMetadata).type == .symlink) catch _ => pure false
    if isLink then
      let directory ← realPlace ((here.parent.map toString).getD "/")
      let link := directory ++ "/" ++ here.fileName.getD ""
      tree := place tree link (.link (← realPlace above.text))
  takeIn resolver tree [] [← realPlace path.text]

def picture (sources : Command.Sources) : IO FileTree := do
  let home := (← IO.currentDir).toString
  let start : FileTree := ⟨.directory [], (FilePath.mk home).pieces.filter (· ≠ "")⟩
  let start := place start home (.directory [])
  if sources.data.isSome then return start
  sources.files.foldlM (takeInPath sources.resolver) start

/-- All bytes of a stream. -/
partial def readAll (stream : IO.FS.Stream) (bytes : ByteArray) : IO ByteArray := do
  let chunk ← stream.read 65536
  if chunk.isEmpty then return bytes else readAll stream (bytes ++ chunk)

def execute (invocation : Command.Invocation) : IO UInt32 := do
  let sources : Command.Sources :=
    match invocation.task with
    | .ask _ sources => sources
    | .segments _ => { data := some "" }
  let tree ← picture sources
  let standardInput ←
    if sources.data.isNone && sources.files.isEmpty then readAll (← IO.getStdin) .empty
    else pure .empty
  let outcome := invocation.run tree standardInput
  for notice in outcome.notices do
    IO.eprintln ("[" ++ notice.level ++ "] " ++ notice.message)
  IO.print outcome.output
  if let some failure := outcome.failure? then IO.eprintln ("Error: " ++ failure.message)
  return UInt32.ofNat outcome.exitCode

end Program
end DocumentQuery

open DocumentQuery in
def main (arguments : List String) : IO UInt32 := do
  match Command.Invocation.ofArguments arguments with
  | .ok invocation => Program.execute invocation
  | .error .version =>
    IO.println Command.versionText
    return 0
  | .error .help =>
    IO.println Command.helpText
    return 0
  | .error (.fault fault) =>
    IO.eprintln ("error: " ++ fault.message)
    return 2
