import DocumentQuery.Paths.Plan
import DocumentQuery.Source.Reader
import DocumentQuery.Source.Resolver

/-!
# Invocations

What one run of the program is asked to do: a command on documents from some sources, and
how much is told about it.
-/

namespace DocumentQuery
namespace Command

inductive OutputFormat where
  | json
  | yaml
  /-- Strings without quotes, all else as JSON. -/
  | raw
deriving DecidableEq

namespace OutputFormat

def ofName? (name : String) : Option OutputFormat :=
  if name = "json" then some json
  else if name = "yaml" then some yaml
  else if name = "raw" then some raw
  else none

end OutputFormat

/-- Where the documents come from: a text that is given, files and directories, or else
the standard input. -/
structure Sources where
  data : Option String := none
  files : List FilePath := []
  format : Option Format := none
  maxSize : Option Nat := none
  followLinks : Bool := false
  maxDepth : Option Nat := none
  includeHidden : Bool := false
  extensions : List String := []
  exclude : List String := []
  /-- Which expressions of globs can be compiled. -/
  compiles : Expression → Bool := Expression.isSmall

namespace Sources

/-- A wanted extension, without the dots before it and in lower case. -/
def wantedExtension (text : String) : String :=
  Text.lowerCase (String.ofList (text.toList.dropWhile (· = '.')))

def reader (sources : Sources) : Reader where
  limit := sources.maxSize <|> ({} : Reader).limit
  format := sources.format

def resolver (sources : Sources) : Resolver where
  followLinks := sources.followLinks
  maxDepth := sources.maxDepth
  includeHidden := sources.includeHidden
  extensions :=
    if sources.extensions.isEmpty then Format.extensions
    else sources.extensions.map wantedExtension
  exclude := sources.exclude
  compiles := sources.compiles

end Sources

structure Layout where
  format : OutputFormat := .json
  pretty : Bool := false

inductive Question where
  | get (path : String) (layout : Layout)
  | finds (path : String)
  | size (path : Option String)
  | kind (path : Option String)

inductive Task where
  | ask (question : Question) (sources : Sources)
  | segments (path : String)

inductive Verbosity where
  | quiet
  | normal
  | verbose
deriving DecidableEq

structure Invocation where
  task : Task
  rooting : Rooting
  verbosity : Verbosity

end Command
end DocumentQuery
