import DocumentQuery.Yaml.Cursor
import DocumentQuery.Yaml.Scalar

/-!
# Written scalars

A text is written plain where that reads back as the same text, and quoted or as a
literal block otherwise. Lines are never folded.
-/

namespace DocumentQuery
namespace Yaml
namespace Block

inductive Style where
  | plain
  | singleQuoted
  | doubleQuoted
  | literal
deriving DecidableEq

def isPrintable (c : Char) : Bool :=
  c = '\n' || (' ' ≤ c && c ≤ '~') ||
    ('\u00a0' ≤ c && c ≠ '\ufeff' && c ≠ '\ufffe' && c ≠ '\uffff')

def hasNeighbours (p q : Char → Bool) : List Char → Bool
  | a :: b :: rest => (p a && q b) || hasNeighbours p q (b :: rest)
  | _ => false

def isLineSpace (c : Char) : Bool := c = ' '

def hasUnprintable (cs : List Char) : Bool := cs.any fun c => !isPrintable c

def leadingIndicators : List Char :=
  ['#', ',', '[', ']', '\x7b', '\x7d', '&', '*', '!', '|', '>', '\'', '"', '%', '@', '\x60']

def startsWithIndicator : List Char → Bool
  | [] => false
  | c :: rest =>
    leadingIndicators.contains c || ((c = '?' || c = '-') && endsWord rest) ||
      ["---".toList, "...".toList].contains ((c :: rest).take 3)

/-- Whether a text has an indicator inside: a colon at the end of a word, or a number sign
at the start of one. -/
def hasInnerIndicator (afterSpace : Bool) : List Char → Bool
  | [] => false
  | c :: rest =>
    (c = ':' && endsWord rest) || (c = '#' && afterSpace) || hasInnerIndicator (isSpace c) rest

def allowsPlain (cs : List Char) : Bool :=
  !cs.any isBreak && !hasUnprintable cs && cs.head? ≠ some ' ' && cs.getLast? ≠ some ' ' &&
    !startsWithIndicator cs && !hasInnerIndicator true cs

def allowsSingleQuoted (cs : List Char) : Bool :=
  !hasUnprintable cs && !hasNeighbours isBreak isLineSpace cs &&
    !hasNeighbours isLineSpace isBreak cs

def allowsLiteral (cs : List Char) : Bool :=
  !hasUnprintable cs && !hasNeighbours isLineSpace isBreak cs && cs.getLast? ≠ some ' '

/-- Whether a plain scalar with this text would be something other than a string, or looks
like a number. -/
def readsAsOther (text : String) : Bool :=
  isPaddedDigits text.toList ||
    match plainValue text with
    | .ok (.string _) => false
    | _ => true

def styleOf (text : String) : Style :=
  let cs := text.toList
  if cs.contains '\n' then if allowsLiteral cs then .literal else .doubleQuoted
  else if allowsPlain cs && !readsAsOther text then .plain
  else if allowsSingleQuoted cs then .singleQuoted
  else .doubleQuoted

def blanks (count : Nat) : List Char := List.replicate count ' '

def indentLines (indent : Nat) (atLineStart : Bool) : List Char → List Char
  | [] => []
  | c :: rest =>
    if isBreak c then c :: indentLines indent true rest
    else (if atLineStart then blanks indent else []) ++ c :: indentLines indent false rest

def singleQuotedText (indent : Nat) (cs : List Char) : List Char :=
  let doubled := cs.flatMap fun c => if c = '\'' then ['\'', '\''] else [c]
  let closing := if cs.getLast?.any isBreak then blanks indent else []
  '\'' :: indentLines indent false doubled ++ closing ++ ['\'']

def hexDigits (width n : Nat) : List Char :=
  let digits := (Nat.toDigits 16 n).map Char.toUpper
  List.replicate (width - digits.length) '0' ++ digits

def escapeLetter? (c : Char) : Option Char :=
  match c with
  | '\x00' => some '0'
  | '\x07' => some 'a'
  | '\x08' => some 'b'
  | '\t' => some 't'
  | '\n' => some 'n'
  | '\x0b' => some 'v'
  | '\x0c' => some 'f'
  | '\r' => some 'r'
  | '\x1b' => some 'e'
  | '"' => some '"'
  | '\\' => some '\\'
  | '\u0085' => some 'N'
  | '\u2028' => some 'L'
  | '\u2029' => some 'P'
  | _ => none

def doubleQuotedChar (c : Char) : List Char :=
  match escapeLetter? c with
  | some letter => ['\\', letter]
  | none =>
    if isPrintable c then [c]
    else if c.toNat ≤ 0xff then '\\' :: 'x' :: hexDigits 2 c.toNat
    else '\\' :: 'u' :: hexDigits 4 c.toNat

def doubleQuotedText (cs : List Char) : List Char := '"' :: cs.flatMap doubleQuotedChar ++ ['"']

/-- What the header of a literal block says about the breaks at its end: `-` that there
are none, `+` that all of them count; one break alone needs no sign. -/
def chompingSign (cs : List Char) : List Char :=
  match cs.reverse with
  | [] => ['-']
  | last :: before =>
    if !isBreak last then ['-']
    else
      match before with
      | [] => ['+']
      | c :: _ => if isBreak c then ['+'] else []

/-- A literal block; its header tells the indentation if the text starts with white
space. -/
def literalText (indent : Nat) (cs : List Char) : List Char :=
  let sign := if cs.head?.any (fun c => isLineSpace c || isBreak c) then ['2'] else []
  '|' :: sign ++ chompingSign cs ++ '\n' :: indentLines indent true cs

def scalarText (indent : Nat) (text : String) : List Char :=
  let cs := text.toList
  match styleOf text with
  | .plain => cs
  | .singleQuoted => singleQuotedText indent cs
  | .doubleQuoted => doubleQuotedText cs
  | .literal => literalText indent cs

end Block
end Yaml
end DocumentQuery
