import DocumentQuery.Command.Run
import DocumentQuery.Query.Answers

/-!
# Loading inputs

The inputs of a run, in the order in which they are asked. Of several files those that
cannot be read are skipped, with a notice; a single one has to be read.
-/

namespace DocumentQuery
namespace Command

structure NamedInput where
  name : String
  input : Input

def NamedInput.ofDocument (document : Document) : NamedInput :=
  ⟨document.sourceName, .value document.value⟩

/-- Reads files. Where there are several, one that fails is passed over if the others can
still be worked on. -/
def readFiles (reader : Reader) (tree : FileTree) (several : Bool) :
    List FilePath → Run (List NamedInput)
  | [] => return []
  | file :: rest =>
    match reader.read tree file with
    | .ok document => do
      let others ← readFiles reader tree several rest
      return .ofDocument document :: others
    | .error failure =>
      if several && failure.isRecoverable then do
        Run.tell (.skipping file.text failure)
        readFiles reader tree several rest
      else Run.ofResult (.error failure)

/-- Loads the inputs that sources name. A text that is given is decoded only when it is
asked. -/
def Sources.load (sources : Sources) (tree : FileTree) (standardInput : ByteArray) :
    Run (List NamedInput) :=
  match sources.data with
  | some text => return [⟨"--data", .text text⟩]
  | none =>
    if sources.files.isEmpty then do
      let document ← Run.ofResult (sources.reader.readStream standardInput)
      return [.ofDocument document]
    else do
      let files ← Run.ofResult (sources.resolver.resolve tree sources.files)
      readFiles sources.reader tree (1 < files.length) files

end Command
end DocumentQuery
