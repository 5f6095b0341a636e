import DocumentQuery.Query.Answers
import DocumentQuery.Source.Reader

/-!
# Questions about a file

A file is read with the default limit and queried at once. All three questions fail
alike when the document cannot be read.
-/

namespace DocumentQuery
namespace FileTree

variable (tree : FileTree) (file : FilePath)

def input (tree : FileTree) (file : FilePath) : Except Failure Input := do
  let document ← ({} : Reader).read tree file
  return .value document.value

def get (path : String) : Except Failure (Option Json) :=
  return (← tree.input file).get .written path

def finds (path : String) : Except Failure Bool :=
  return (← tree.input file).finds .written path

def kind (path : Option String) : Except Failure Kind :=
  return (← tree.input file).kind .written path

end FileTree
end DocumentQuery
