import DocumentQuery.Json.Decode
import DocumentQuery.Source.Failure
import DocumentQuery.Source.Format
import DocumentQuery.Yaml.Conversion

/-!
# Documents

A document is a decoded value together with where it came from and how it was encoded.
-/

namespace DocumentQuery

structure Document where
  /-- The file, unless the document was given as a text or a stream. -/
  source : Option FilePath
  format : Format
  value : Json

namespace Document

/-- How a source is shown; `-` stands for no file. -/
def nameOf (source : Option FilePath) : String :=
  match source with
  | some path => path.text
  | none => "-"

def sourceName (document : Document) : String := nameOf document.source

def ofJson (text : String) (source : Option FilePath) : Except Failure Document :=
  match Json.decode text with
  | .ok value => .ok ⟨source, .json, value⟩
  | .error fault => .error (.invalidDocument (nameOf source) (fault.describe text.toList))

/-- Decodes YAML text. A fault of the text is told with its source; a value that has no
JSON form is not. -/
def ofYaml (text : String) (source : Option FilePath) : Except Failure Document :=
  match Yaml.decode text with
  | .ok value => .ok ⟨source, .yaml, value⟩
  | .error (.yaml reason) => .error (.invalidDocument (nameOf source) reason)
  | .error failure => .error failure

/-- Decodes a text. Without a format it is YAML unless it is JSON. -/
def ofText (text : String) (format : Option Format) (source : Option FilePath) :
    Except Failure Document :=
  match format with
  | some .json => ofJson text source
  | some .yaml => ofYaml text source
  | none =>
    match ofJson text source with
    | .ok document => .ok document
    | .error _ => ofYaml text source

end Document
end DocumentQuery
