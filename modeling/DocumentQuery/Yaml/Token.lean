/-!
# Tokens of a YAML text

The structure of a text as a flat list: collections are opened and closed, and keys and
values announced, by tokens of their own.
-/

namespace DocumentQuery
namespace Yaml

inductive Fault where
  | forbiddenCharacter
  | badDirective
  | badAnchor
  | badTag
  | badQuoted
  | badBlock
  | badPlain
  | badIndentation
  | misplacedEntry
  | misplacedKey
  | misplacedValue
  | missingValue
  | strayCharacter
  | badStructure
  | undefinedHandle
  | undefinedAlias
  | tooManyAliases
  | tooDeep
  | repeatedKey
  | integerTooLarge
  | tagMismatch
  | severalDocuments
deriving DecidableEq

def Fault.message : Fault → String
  | forbiddenCharacter => "control characters are not allowed"
  | badDirective => "malformed directive"
  | badAnchor => "malformed anchor or alias"
  | badTag => "malformed tag"
  | badQuoted => "malformed quoted scalar"
  | badBlock => "malformed block scalar"
  | badPlain => "unexpected character in a plain scalar"
  | badIndentation => "a tab violates the indentation"
  | misplacedEntry => "block sequence entries are not allowed here"
  | misplacedKey => "mapping keys are not allowed here"
  | misplacedValue => "mapping values are not allowed here"
  | missingValue => "a key has no value"
  | strayCharacter => "a character cannot start any token"
  | badStructure => "collections do not fit together"
  | undefinedHandle => "undefined tag handle"
  | undefinedAlias => "unknown anchor"
  | tooManyAliases => "repetition limit exceeded"
  | tooDeep => "recursion limit exceeded"
  | repeatedKey => "duplicate entry in a mapping"
  | integerTooLarge => "integer out of range"
  | tagMismatch => "the text does not fit its tag"
  | severalDocuments => "more than one document"

/-- The bytes of a tag. Percent escapes may spell bytes that are no text. -/
abbrev TagBytes := List UInt8

inductive Token where
  | version (major minor : Nat)
  | handle (name : String) (expansion : TagBytes)
  | documentStart
  | documentEnd
  | blockSequence
  | blockMapping
  | blockEnd
  | flowSequence
  | flowSequenceEnd
  | flowMapping
  | flowMappingEnd
  | blockEntry
  | flowEntry
  | key
  | value
  | alias (name : String)
  | anchor (name : String)
  | tag (handle : String) (suffix : TagBytes)
  | scalar (plain : Bool) (text : String)
deriving DecidableEq

end Yaml
end DocumentQuery
