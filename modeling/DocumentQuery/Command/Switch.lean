import DocumentQuery.Command.Invocation
import DocumentQuery.Numeral.Word

/-!
# Switches

The options of the command line, with their names and the verbs that know them, and what
has been read of a command line so far.
-/

namespace DocumentQuery
namespace Command

inductive UsageFault where
  | missingVerb
  | unknownVerb (text : String)
  | unknownOption (text : String)
  | unexpectedOperand (text : String)
  | unexpectedValue (option : String)
  | missingValue (option : String)
  | invalidValue (option value : String)
  | repeatedOption (option : String)
  | conflictingOptions (option other : String)
  | missingPath
deriving DecidableEq

def UsageFault.message : UsageFault → String
  | missingVerb => "a command is required"
  | unknownVerb text => "unrecognized command " ++ Text.quoted text
  | unknownOption text => "unexpected option " ++ Text.quoted text
  | unexpectedOperand text => "unexpected argument " ++ Text.quoted text
  | unexpectedValue option => "no value is allowed for " ++ option
  | missingValue option => "a value is required for " ++ option
  | invalidValue option value => "invalid value " ++ Text.quoted value ++ " for " ++ option
  | repeatedOption option => option ++ " cannot be used multiple times"
  | conflictingOptions option other => option ++ " cannot be used with " ++ other
  | missingPath => "a path is required"

inductive Verb where
  | get
  | finds
  | size
  | kind
  | segments
deriving DecidableEq

namespace Verb

def name : Verb → String
  | get => "get"
  | finds => "exists"
  | size => "size"
  | kind => "type"
  | segments => "segments"

def all : List Verb := [get, finds, size, kind, segments]

def ofName? (text : String) : Option Verb := all.find? (·.name = text)

def takesPath : Verb → Bool
  | get | finds | segments => true
  | size | kind => false

def takesFiles : Verb → Bool
  | segments => false
  | _ => true

end Verb

inductive Switch where
  | verbose
  | quiet
  | help
  | version
  | autoRoot
  | data
  | inputFormat
  | followLinks
  | maxDepth
  | includeHidden
  | extension
  | exclude
  | maxSize
  | path
  | format
  | pretty
deriving DecidableEq

namespace Switch

def long : Switch → String
  | verbose => "verbose"
  | quiet => "quiet"
  | help => "help"
  | version => "version"
  | autoRoot => "auto-root"
  | data => "data"
  | inputFormat => "input-format"
  | followLinks => "follow-links"
  | maxDepth => "max-depth"
  | includeHidden => "include-hidden"
  | extension => "ext"
  | exclude => "exclude"
  | maxSize => "max-size"
  | path => "path"
  | format => "format"
  | pretty => "pretty"

def short? : Switch → Option Char
  | verbose => some 'v'
  | quiet => some 'q'
  | help => some 'h'
  | version => some 'V'
  | path => some 'p'
  | _ => none

def shown (switch : Switch) : String := "--" ++ switch.long

def takesValue : Switch → Bool
  | data | inputFormat | maxDepth | extension | exclude | maxSize | path | format => true
  | _ => false

def isRepeatable : Switch → Bool
  | extension | exclude => true
  | _ => false

def ofProgram : List Switch := [verbose, quiet, help, version]

def ofSources : List Switch :=
  [data, inputFormat, followLinks, maxDepth, includeHidden, extension, exclude, maxSize]

def ofVerb : Verb → List Switch
  | .get => [verbose, quiet, help, autoRoot, format, pretty] ++ ofSources
  | .finds => [verbose, quiet, help, autoRoot] ++ ofSources
  | .size | .kind => [verbose, quiet, help, autoRoot, path] ++ ofSources
  | .segments => [verbose, quiet, help, autoRoot]

end Switch

structure Draft where
  /-- The options that were given. -/
  given : List Switch := []
  path : Option String := none
  sources : Sources := {}
  layout : Layout := {}

namespace Draft

variable (draft : Draft)

def has (switch : Switch) : Bool := draft.given.contains switch

/-- A number of 64 bits; a plus sign may stand before it. -/
def wordOfText? (text : String) : Option Nat :=
  let digits := match text.toList with
    | '+' :: digits => digits
    | digits => digits
  if digits.isEmpty || !digits.all Char.isDigit then none
  else (Numeral.wordOfDigits? digits).map UInt64.toNat

def withValue? (switch : Switch) (value : String) : Option Draft :=
  let sources := draft.sources
  match switch with
  | .data => some { draft with sources := { sources with data := some value } }
  | .inputFormat => (Format.ofName? value).map fun format =>
      { draft with sources := { sources with format := some format } }
  | .followLinks => some { draft with sources := { sources with followLinks := true } }
  | .maxDepth => (wordOfText? value).map fun n =>
      { draft with sources := { sources with maxDepth := some n } }
  | .includeHidden => some { draft with sources := { sources with includeHidden := true } }
  | .extension => some
      { draft with sources := { sources with extensions := sources.extensions ++ [value] } }
  | .exclude => some
      { draft with sources := { sources with exclude := sources.exclude ++ [value] } }
  | .maxSize => (wordOfText? value).map fun n =>
      { draft with sources := { sources with maxSize := some n } }
  | .path => some { draft with path := some value }
  | .format => (OutputFormat.ofName? value).map fun format =>
      { draft with layout := { draft.layout with format := format } }
  | .pretty => some { draft with layout := { draft.layout with pretty := true } }
  | .verbose | .quiet | .help | .version | .autoRoot => some draft

/-- Adds an option. Most options may be given only once. -/
def add (switch : Switch) (value : String) : Except UsageFault Draft :=
  if draft.has switch && !switch.isRepeatable then .error (.repeatedOption switch.shown)
  else
    match draft.withValue? switch value with
    | some changed => .ok { changed with given := switch :: draft.given }
    | none => .error (.invalidValue switch.shown value)

def addOperand (verb : Verb) (text : String) : Except UsageFault Draft :=
  if verb.takesPath && draft.path.isNone then .ok { draft with path := some text }
  else if !verb.takesFiles then .error (.unexpectedOperand text)
  else if text = "" then .error (.invalidValue "a file" text)
  else
    let files := draft.sources.files ++ [⟨text⟩]
    .ok { draft with sources := { draft.sources with files := files } }

def checkConflict (switch other : Switch) : Except UsageFault Unit :=
  if draft.has switch && draft.has other then
    .error (.conflictingOptions switch.shown other.shown)
  else .ok ()

end Draft
end Command
end DocumentQuery
