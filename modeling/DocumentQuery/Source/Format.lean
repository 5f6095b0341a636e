import DocumentQuery.Source.FilePath
import DocumentQuery.Text.LowerCase

/-!
# Document formats

A document is encoded in one of two formats, which the extension of its file tells.
-/

namespace DocumentQuery

inductive Format where
  | json
  | yaml
deriving DecidableEq

namespace Format

def name : Format → String
  | json => "json"
  | yaml => "yaml"

def ofName? (name : String) : Option Format :=
  if name = "json" then some json else if name = "yaml" then some yaml else none

def ofExtension? (extension : String) : Option Format :=
  if extension = "json" then some json
  else if extension = "yaml" ∨ extension = "yml" then some yaml
  else none

def extensions : List String := ["json", "yaml", "yml"]

def ofPath? (path : FilePath) : Option Format :=
  (path.extension?.map Text.lowerCase).bind ofExtension?

end Format
end DocumentQuery
