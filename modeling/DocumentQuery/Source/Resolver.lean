import DocumentQuery.Source.Format
import DocumentQuery.Source.Glob
import DocumentQuery.Source.Walk

/-!
# Resolving file arguments

File arguments name files, which are taken as they are, and directories, which are walked
for data files. The files found are kept in path order, each once.
-/

namespace DocumentQuery

structure Resolver where
  followLinks : Bool := false
  /-- How many levels below a directory are looked at. -/
  maxDepth : Option Nat := none
  includeHidden : Bool := false
  /-- The extensions, in lower case, of the files taken from directories; none means that
  all files are taken. -/
  extensions : List String := Format.extensions
  /-- Globs for the paths that are left out. -/
  exclude : List String := []
  /-- Which expressions of globs can be compiled. -/
  compiles : Expression → Bool := Expression.isSmall

namespace Resolver

variable (resolver : Resolver)

def isHidden (file : FoundFile) : Bool := file.below.any FilePath.Component.isHiddenName

/-- Whether a file has one of the wanted extensions. No extension is an empty one. -/
def hasWantedExtension (path : FilePath) : Bool :=
  resolver.extensions.isEmpty ||
    resolver.extensions.contains ((path.extension?.map Text.lowerCase).getD "")

def isExcluded (globs : List Glob) (path : FilePath) : Bool :=
  globs.any fun glob => glob.accepts path.text

def isTaken (globs : List Glob) (file : FoundFile) : Bool :=
  (resolver.includeHidden || !isHidden file) && resolver.hasWantedExtension file.path &&
    !isExcluded globs file.path

def filesOf (globs : List Glob) (tree : FileTree) (path : FilePath) :
    Except Failure (List FilePath) :=
  if tree.isFile path then .ok (if isExcluded globs path then [] else [path])
  else if tree.isDirectory path then do
    let found ← tree.walk resolver.followLinks resolver.maxDepth path
    .ok ((found.filter (resolver.isTaken globs)).map FoundFile.path)
  else .error (.fileNotFound path.text)

/-- The files found so far and those that one more argument names. Of several spellings of
one path the first is kept. -/
def addFilesOf (globs : List Glob) (tree : FileTree) (files : List FilePath) (path : FilePath) :
    Except Failure (List FilePath) := do
  let named ← resolver.filesOf globs tree path
  .ok (named.foldl (fun files file => file.insertInto files) files)

def resolve (tree : FileTree) (paths : List FilePath) : Except Failure (List FilePath) := do
  let globs ← resolver.exclude.mapM (Glob.ofText resolver.compiles)
  paths.foldlM (resolver.addFilesOf globs tree) []

end Resolver
end DocumentQuery
