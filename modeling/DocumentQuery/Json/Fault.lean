/-!
# Faults of a JSON text

A fault has a cause and a place. The place is kept as the text still unread where the
fault was met; line and column are counted only when the fault is shown.
-/

namespace DocumentQuery
namespace Json

inductive Cause where
  | endInValue
  | endInString
  | endInArray
  | endInObject
  | noValue
  | noKeyword
  | noColon
  | noArrayComma
  | noObjectComma
  | noKey
  | trailingComma
  | trailingCharacters
  | badNumber
  | numberOutOfRange
  | badEscape
  | controlCharacter
  | loneSurrogate
  | cutSurrogatePair
  | tooDeep
deriving DecidableEq

def Cause.message : Cause → String
  | endInValue => "EOF while parsing a value"
  | endInString => "EOF while parsing a string"
  | endInArray => "EOF while parsing a list"
  | endInObject => "EOF while parsing an object"
  | noValue => "expected value"
  | noKeyword => "expected ident"
  | noColon => "expected \x60:\x60"
  | noArrayComma => "expected \x60,\x60 or \x60]\x60"
  | noObjectComma => "expected \x60,\x60 or \x60\x7d\x60"
  | noKey => "key must be a string"
  | trailingComma => "trailing comma"
  | trailingCharacters => "trailing characters"
  | badNumber => "invalid number"
  | numberOutOfRange => "number out of range"
  | badEscape => "invalid escape"
  | controlCharacter => "control character (\\u0000-\\u001F) found while parsing a string"
  | loneSurrogate => "lone leading surrogate in hex escape"
  | cutSurrogatePair => "unexpected end of hex escape"
  | tooDeep => "recursion limit exceeded"

/-- A cause, the text from the fault on, and the number of its bytes that had been
looked at. -/
structure Fault where
  cause : Cause
  unread : List Char
  seen : Nat

namespace Fault

def here (cause : Cause) (unread : List Char) : Fault := ⟨cause, unread, 1⟩

def before (cause : Cause) (unread : List Char) : Fault := ⟨cause, unread, 0⟩

end Fault

def byteLength (text : List Char) : Nat := text.foldr (fun c bytes => c.utf8Size + bytes) 0

/-- Line and column after the first `bytes` bytes of a text: lines count from one,
columns are bytes since the start of the line. -/
def positionAfter (bytes line column : Nat) : List Char → Nat × Nat
  | [] => (line, column)
  | c :: rest =>
    if bytes < c.utf8Size then (line, column + bytes)
    else if c = '\n' then positionAfter (bytes - 1) (line + 1) 0 rest
    else positionAfter (bytes - c.utf8Size) line (column + c.utf8Size) rest

/-- What is told of a fault in a text. Past the end of the text no byte can be seen. -/
def Fault.describe (text : List Char) (fault : Fault) : String :=
  let left := byteLength fault.unread
  let bytes := byteLength text - left + min fault.seen left
  let (line, column) := positionAfter bytes 1 0 text
  fault.cause.message ++ " at line " ++ line.repr ++ " column " ++ column.repr

end Json
end DocumentQuery
