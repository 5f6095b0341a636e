import DocumentQuery.Yaml.Cursor
import DocumentQuery.Yaml.Token
import DocumentQuery.Yaml.Token.Scalar

/-!
# Directives, anchors and tags

The tokens that carry a name: `%YAML` and `%TAG` lines, `&anchor`, `*alias` and `!tag`.
-/

namespace DocumentQuery
namespace Yaml

/-- Reads a name after `&` or `*`. It is not empty and ends at a blank, a break or an
indicator. -/
def anchorName (cursor : Cursor) : Except Fault (String × Cursor) :=
  let name := cursor.take isNameChar
  let cursor := cursor.skip name.length
  let ends := endsWord cursor.rest || cursor.rest.head?.any ("?:,]\x7d%@\x60".toList.contains ·)
  if !name.isEmpty && ends then .ok (String.ofList name, cursor) else .error .badAnchor

def sequenceWidth? (byte : Nat) : Option Nat :=
  if byte < 0x80 then some 1
  else if 0xC0 ≤ byte ∧ byte < 0xE0 then some 2
  else if 0xE0 ≤ byte ∧ byte < 0xF0 then some 3
  else if 0xF0 ≤ byte ∧ byte < 0xF8 then some 4
  else none

def percentByte? (text : List Char) : Option (Nat × List Char) :=
  match text with
  | '%' :: a :: b :: rest =>
    match hexNumber? [a, b] with
    | some byte => some (byte, rest)
    | none => none
  | _ => none

def continuationBytes? : Nat → List Char → Option (List Nat × List Char)
  | 0, text => some ([], text)
  | count + 1, text => do
    let (byte, rest) ← percentByte? text
    if 0x80 ≤ byte ∧ byte < 0xC0 then
      let (bytes, rest) ← continuationBytes? count rest
      some (byte :: bytes, rest)
    else none

def percentBytes? (text : List Char) : Option (List Nat × List Char) := do
  let (byte, rest) ← percentByte? text
  let width ← sequenceWidth? byte
  let (bytes, rest) ← continuationBytes? (width - 1) rest
  some (byte :: bytes, rest)

/-- Characters of a tag; commas and brackets only where `full` allows them. -/
def isTagChar (full : Bool) (c : Char) : Bool :=
  isNameChar c || ";/?:@&=+$.!~*'()".toList.contains c || (full && ",[]".toList.contains c)

def tagBytes (full : Bool) : Nat → List Char → Except Fault (TagBytes × List Char)
  | 0, text => .ok ([], text)
  | fuel + 1, text =>
    match text with
    | [] => .ok ([], [])
    | c :: rest =>
      if c = '%' then
        match percentBytes? text with
        | some (escaped, rest) => do
          let (bytes, rest) ← tagBytes full fuel rest
          .ok (escaped.map UInt8.ofNat ++ bytes, rest)
        | none => .error .badTag
      else if isTagChar full c then do
        let (bytes, rest) ← tagBytes full fuel rest
        .ok (UInt8.ofNat c.toNat :: bytes, rest)
      else .ok ([], text)

def Cursor.tagBytes (full : Bool) (cursor : Cursor) : Except Fault (TagBytes × Cursor) := do
  let (bytes, rest) ← Yaml.tagBytes full cursor.remaining cursor.rest
  .ok (bytes, cursor.skip (cursor.remaining - rest.length))

def tagHandle (cursor : Cursor) : Except Fault (List Char × Cursor) :=
  match cursor.rest with
  | '!' :: rest =>
    let name := rest.takeWhile isNameChar
    let closing := if (rest.dropWhile isNameChar).head? = some '!' then ['!'] else []
    let handle := '!' :: name ++ closing
    .ok (handle, cursor.skip handle.length)
  | _ => .error .badTag

def asciiBytes (text : List Char) : TagBytes := text.map fun c => UInt8.ofNat c.toNat

/-- What counts of the bytes of a tag: those before the first zero byte, which an escape
may spell. -/
def TagBytes.effective (bytes : TagBytes) : TagBytes := bytes.takeWhile (· ≠ 0)

/-- Reads a tag: `!<…>` in full, `!handle!rest` with a named handle, or `!rest`; a lone
`!` is a tag of its own. -/
def tagToken (inFlow : Bool) (cursor : Cursor) : Except Fault (Token × Cursor) := do
  let (token, cursor) ←
    if cursor.rest.take 2 = ['!', '<'] then do
      let (bytes, cursor) ← (cursor.skip 2).tagBytes true
      if bytes.isEmpty || !cursor.startsWith '>' then .error Fault.badTag
      .ok (Token.tag "" bytes.effective, cursor.skip 1)
    else do
      let (handle, cursor) ← tagHandle cursor
      if 2 ≤ handle.length ∧ handle.getLast? = some '!' then do
        let (bytes, cursor) ← cursor.tagBytes false
        if bytes.isEmpty then .error Fault.badTag
        .ok (Token.tag (String.ofList handle) bytes.effective, cursor)
      else do
        let (bytes, cursor) ← cursor.tagBytes false
        let suffix := asciiBytes (handle.drop 1) ++ bytes.effective
        if suffix.isEmpty then .ok (Token.tag "" (asciiBytes ['!']), cursor)
        else .ok (Token.tag "!" suffix, cursor)
  if endsWord cursor.rest || (inFlow && cursor.startsWith ',') then .ok (token, cursor)
  else .error .badTag

def versionNumber (cursor : Cursor) : Except Fault (Nat × Cursor) :=
  let digits := cursor.take Char.isDigit
  if digits.isEmpty || 9 < digits.length then .error .badDirective
  else .ok (Nat.ofDigitChars 10 digits 0, cursor.skip digits.length)

def versionDirective (cursor : Cursor) : Except Fault (Token × Cursor) := do
  let (major, cursor) ← versionNumber (cursor.skipWhile isBlank)
  if !cursor.startsWith '.' then .error Fault.badDirective
  let (minor, cursor) ← versionNumber (cursor.skip 1)
  .ok (.version major minor, cursor)

def handleDirective (cursor : Cursor) : Except Fault (Token × Cursor) := do
  let (handle, cursor) ← tagHandle (cursor.skipWhile isBlank)
  if handle.getLast? ≠ some '!' || !cursor.atBlank then .error Fault.badDirective
  let (expansion, cursor) ← (cursor.skipWhile isBlank).tagBytes true
  if expansion.isEmpty || !endsWord cursor.rest then .error Fault.badDirective
  .ok (.handle (String.ofList handle) expansion.effective, cursor)

def directive (cursor : Cursor) : Except Fault (Token × Cursor) := do
  let name := cursor.take isNameChar
  let cursor := cursor.skip name.length
  if !endsWord cursor.rest then .error Fault.badDirective
  let (token, cursor) ←
    if name = "YAML".toList then versionDirective cursor
    else if name = "TAG".toList then handleDirective cursor
    else .error Fault.badDirective
  match cursor.finishLine? with
  | some cursor => .ok (token, cursor)
  | none => .error .badDirective

end Yaml
end DocumentQuery
