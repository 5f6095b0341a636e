import DocumentQuery.Source.Document
import DocumentQuery.Source.FileTree

/-!
# Reading documents

Documents are read from files and from streams, up to a limit on their size. A file is
measured before it is read; of a stream one byte more than the limit is read, which
tells that it is longer.
-/

namespace DocumentQuery

structure Reader where
  /-- The greatest number of bytes a document may have. -/
  limit : Option Nat := some (64 * 1024 * 1024)
  /-- The format of every document; without it the extension of a file counts. -/
  format : Option Format := none

namespace Reader

variable (reader : Reader)

def textOfBytes (bytes : ByteArray) : Except Failure String :=
  match String.fromUTF8? bytes with
  | some text => .ok text
  | none => .error (.io .other "stream did not contain valid UTF-8")

/-- How many bytes of a stream are read under a limit: one more, unless the limit is the
greatest word of 64 bits. -/
def reach (limit : Nat) : Nat := if limit + 1 < UInt64.size then limit + 1 else limit

def taken (bytes : ByteArray) : ByteArray :=
  match reader.limit with
  | some limit => bytes.extract 0 (reach limit)
  | none => bytes

/-- Reads the document that a stream of bytes holds. What was read is made a text before it
is counted, so that of a stream over the limit bytes that are no text are noticed first. -/
def readStream (bytes : ByteArray) : Except Failure Document := do
  let taken := reader.taken bytes
  let text ← textOfBytes taken
  match reader.limit with
  | some limit =>
    if limit < taken.size then throw (.tooLarge (Document.nameOf none) taken.size limit)
  | none => pure ()
  Document.ofText text reader.format none

def readContent (path : FilePath) (content : ByteArray) : Except Failure Document := do
  match reader.limit with
  | some limit =>
    if limit < content.size then throw (.tooLarge path.text content.size limit)
  | none => pure ()
  Document.ofText (← textOfBytes content) (reader.format <|> Format.ofPath? path) (some path)

def read (tree : FileTree) (path : FilePath) : Except Failure Document :=
  match tree.lookup path with
  | .error _ => .error (.fileNotFound path.text)
  | .ok (.file content) => reader.readContent path content
  | .ok _ => .error (.unsupportedFormat path.text)

end Reader

end DocumentQuery
