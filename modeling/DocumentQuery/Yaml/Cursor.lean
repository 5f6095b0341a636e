/-!
# Reading a YAML text

A cursor is the rest of a text together with its place: the number of bytes before it,
the line and the column. Five kinds of line break are known; carriage return
and line feed together are one.
-/

namespace DocumentQuery
namespace Yaml

def isBlank (c : Char) : Bool := c = ' ' || c = '\t'

def isBreak (c : Char) : Bool :=
  c = '\r' || c = '\n' || c = '\u0085' || c = '\u2028' || c = '\u2029'

def isSpace (c : Char) : Bool := isBlank c || isBreak c

def isNameChar (c : Char) : Bool := c.isAlphanum || c = '_' || c = '-'

def endsWord : List Char → Bool
  | [] => true
  | c :: _ => isSpace c

def byteCount (text : List Char) : Nat := text.foldr (fun c bytes => c.utf8Size + bytes) 0

structure Cursor where
  rest : List Char
  /-- The number of characters from here on. -/
  remaining : Nat
  /-- The number of bytes before this place. -/
  offset : Nat
  line : Nat
  column : Nat

namespace Cursor

def ofText (text : List Char) : Cursor := ⟨text, text.length, 0, 0, 0⟩

def startsWith (cursor : Cursor) (c : Char) : Bool := cursor.rest.head? = some c

def atBlank (cursor : Cursor) : Bool := cursor.rest.head?.any isBlank

def atBreak (cursor : Cursor) : Bool := cursor.rest.head?.any isBreak

def skip (count : Nat) (cursor : Cursor) : Cursor :=
  { cursor with
    rest := cursor.rest.drop count
    remaining := cursor.remaining - count
    offset := cursor.offset + byteCount (cursor.rest.take count)
    column := cursor.column + count }

def skipLine (count : Nat) (cursor : Cursor) : Cursor :=
  { cursor.skip count with line := cursor.line + 1, column := 0 }

def take (p : Char → Bool) (cursor : Cursor) : List Char := cursor.rest.takeWhile p

def skipWhile (p : Char → Bool) (cursor : Cursor) : Cursor :=
  cursor.skip (cursor.take p).length

/-- Passes a line break. It reads as a line feed, unless it is one of the two separators
of Unicode. -/
def takeBreak (cursor : Cursor) : List Char × Cursor :=
  match cursor.rest with
  | '\r' :: '\n' :: _ => (['\n'], cursor.skipLine 2)
  | c :: _ =>
    if isBreak c then
      ([if c = '\u2028' || c = '\u2029' then c else '\n'], cursor.skipLine 1)
    else ([], cursor)
  | [] => ([], cursor)

def skipBreak (cursor : Cursor) : Cursor := cursor.takeBreak.2

/-- Passes blanks, a comment and the end of the line; `none` if anything else is there. -/
def finishLine? (cursor : Cursor) : Option Cursor :=
  let cursor := cursor.skipWhile isBlank
  let cursor :=
    if cursor.startsWith '#' then cursor.skipWhile (fun c => !isBreak c) else cursor
  if cursor.rest.isEmpty || cursor.atBreak then some cursor.skipBreak else none

def atMarker (mark : Char) (cursor : Cursor) : Bool :=
  cursor.column = 0 && cursor.rest.take 3 = [mark, mark, mark] && endsWord (cursor.rest.drop 3)

def atDocumentMarker (cursor : Cursor) : Bool := cursor.atMarker '-' || cursor.atMarker '.'

end Cursor
end Yaml
end DocumentQuery
