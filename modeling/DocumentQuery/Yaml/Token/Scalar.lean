import DocumentQuery.Yaml.Cursor
import DocumentQuery.Yaml.Token

/-!
# Texts of scalars

The text of a plain, quoted or block scalar, with line breaks folded. Every loop passes
at least one character in each round, so the length of the rest bounds it.
-/

namespace DocumentQuery
namespace Yaml

/-- Blanks and breaks between two words of a scalar: the blanks before the first break,
whether there is a break, the first break as far as it counts, and the further ones. -/
structure Gap where
  blanks : List Char
  broken : Bool
  first : List Char
  further : List Char

namespace Gap

def empty : Gap := ⟨[], false, [], []⟩

/-- What a gap reads as. A single line feed becomes a blank, and more of them lose the
first. -/
def text (gap : Gap) : List Char :=
  if gap.broken then
    if gap.first = ['\n'] then
      if gap.further.isEmpty then [' '] else gap.further
    else gap.first ++ gap.further
  else gap.blanks

/-- Passes blanks and breaks. In a new line tabs before the column `indent` are refused. -/
def read (indent : Nat) : Nat → Gap → Cursor → Except Fault (Gap × Cursor)
  | 0, gap, cursor => .ok (gap, cursor)
  | fuel + 1, gap, cursor =>
    match cursor.rest with
    | [] => .ok (gap, cursor)
    | c :: _ =>
      if isBlank c then
        if gap.broken then
          if c = '\t' ∧ cursor.column < indent then .error .badIndentation
          else read indent fuel gap (cursor.skip 1)
        else read indent fuel { gap with blanks := gap.blanks ++ [c] } (cursor.skip 1)
      else if isBreak c then
        let (lineBreak, cursor) := cursor.takeBreak
        if gap.broken then
          read indent fuel { gap with further := gap.further ++ lineBreak } cursor
        else read indent fuel ⟨[], true, lineBreak, []⟩ cursor
      else .ok (gap, cursor)

end Gap

/-- A word of a plain scalar: it ends at blanks, before a colon that ends a key, and in a
flow collection at the indicators of flow. -/
def plainWord (inFlow : Bool) : List Char → Except Fault (List Char)
  | [] => .ok []
  | c :: rest =>
    if isSpace c then .ok []
    else if inFlow && c = ':' && rest.head?.any (",?[]\x7b\x7d".toList.contains ·) then
      .error .badPlain
    else if c = ':' && endsWord rest then .ok []
    else if inFlow && ",[]\x7b\x7d".toList.contains c then .ok []
    else do .ok (c :: (← plainWord inFlow rest))

/-- Reads words and the gaps between them; `done` is the text so far, last character
first, and `gap` what was passed after it. Gives the text, whether a line break follows
it, and the place. -/
def plainText (inFlow : Bool) (indent : Nat) :
    Nat → List Char → Gap → Cursor → Except Fault (List Char × Bool × Cursor)
  | 0, done, gap, cursor => .ok (done.reverse, gap.broken, cursor)
  | fuel + 1, done, gap, cursor =>
    if cursor.atDocumentMarker || cursor.startsWith '#' then
      .ok (done.reverse, gap.broken, cursor)
    else do
      let word ← plainWord inFlow cursor.rest
      if word.isEmpty then .ok (done.reverse, gap.broken, cursor)
      else
        let done := (gap.text ++ word).reverse ++ done
        let cursor := cursor.skip word.length
        let (gap, cursor) ← Gap.read indent (cursor.remaining + 1) .empty cursor
        if (!gap.broken && gap.blanks.isEmpty) || (!inFlow && cursor.column < indent) then
          .ok (done.reverse, gap.broken, cursor)
        else plainText inFlow indent fuel done gap cursor

def hexValue? (c : Char) : Option Nat :=
  if c.isDigit then some (c.toNat - '0'.toNat)
  else if 'a' ≤ c ∧ c ≤ 'f' then some (c.toNat - 'a'.toNat + 10)
  else if 'A' ≤ c ∧ c ≤ 'F' then some (c.toNat - 'A'.toNat + 10)
  else none

def hexNumber? (digits : List Char) : Option Nat :=
  digits.foldlM (fun n c => (hexValue? c).map (n * 16 + ·)) 0

def codeEscape (count : Nat) (text : List Char) : Except Fault (Char × Nat) :=
  let digits := text.take count
  match hexNumber? digits with
  | some n =>
    if digits.length = count ∧ n.isValidChar then .ok (Char.ofNat n, count + 1)
    else .error .badQuoted
  | none => .error .badQuoted

/-- The character of an escape and the number of characters behind the backslash. -/
def doubleEscape (text : List Char) : Except Fault (Char × Nat) :=
  match text with
  | '0' :: _ => .ok ('\x00', 1)
  | 'a' :: _ => .ok ('\x07', 1)
  | 'b' :: _ => .ok ('\x08', 1)
  | 't' :: _ => .ok ('\t', 1)
  | '\t' :: _ => .ok ('\t', 1)
  | 'n' :: _ => .ok ('\n', 1)
  | 'v' :: _ => .ok ('\x0b', 1)
  | 'f' :: _ => .ok ('\x0c', 1)
  | 'r' :: _ => .ok ('\r', 1)
  | 'e' :: _ => .ok ('\x1b', 1)
  | ' ' :: _ => .ok (' ', 1)
  | '"' :: _ => .ok ('"', 1)
  | '/' :: _ => .ok ('/', 1)
  | '\\' :: _ => .ok ('\\', 1)
  | 'N' :: _ => .ok ('\u0085', 1)
  | '_' :: _ => .ok ('\u00a0', 1)
  | 'L' :: _ => .ok ('\u2028', 1)
  | 'P' :: _ => .ok ('\u2029', 1)
  | 'x' :: digits => codeEscape 2 digits
  | 'u' :: digits => codeEscape 4 digits
  | 'U' :: digits => codeEscape 8 digits
  | _ => .error .badQuoted

/-- Reads a quoted scalar after its opening quote; `done` is the text so far, last
character first. A break that is escaped joins its lines without a blank. -/
def quotedText (single : Bool) :
    Nat → List Char → Cursor → Except Fault (List Char × Cursor)
  | 0, _, _ => .error .badQuoted
  | fuel + 1, done, cursor =>
    if cursor.atDocumentMarker then .error .badQuoted
    else
      match cursor.rest with
      | [] => .error .badQuoted
      | c :: rest =>
        if isSpace c then do
          let (gap, cursor) ← Gap.read 0 (cursor.remaining + 1) .empty cursor
          quotedText single fuel (gap.text.reverse ++ done) cursor
        else if single then
          if c = '\'' then
            if rest.head? = some '\'' then
              quotedText single fuel ('\'' :: done) (cursor.skip 2)
            else .ok (done.reverse, cursor.skip 1)
          else quotedText single fuel (c :: done) (cursor.skip 1)
        else if c = '"' then .ok (done.reverse, cursor.skip 1)
        else if c = '\\' then
          if rest.head?.any isBreak then do
            let cursor := (cursor.skip 1).skipBreak
            let (gap, cursor) ←
              Gap.read 0 (cursor.remaining + 1) ⟨[], true, [], []⟩ cursor
            quotedText single fuel (gap.text.reverse ++ done) cursor
          else do
            let (escaped, count) ← doubleEscape rest
            quotedText single fuel (escaped :: done) (cursor.skip (1 + count))
        else quotedText single fuel (c :: done) (cursor.skip 1)

inductive Chomping where
  | strip
  | clip
  | keep
deriving DecidableEq

def chomping? (c : Char) : Option Chomping :=
  if c = '+' then some .keep else if c = '-' then some .strip else none

/-- The indicators after `|` or `>`, in either order: what is kept, and the indentation
if it is given. -/
def blockHeader (cursor : Cursor) : Except Fault (Chomping × Option Nat × Cursor) :=
  let indentation (cursor : Cursor) : Except Fault (Option Nat × Cursor) :=
    match cursor.rest with
    | c :: _ =>
      if c = '0' then .error .badBlock
      else if c.isDigit then .ok (some (c.toNat - '0'.toNat), cursor.skip 1)
      else .ok (none, cursor)
    | [] => .ok (none, cursor)
  match cursor.rest.head?.bind chomping? with
  | some chomping => do
    let (indent, cursor) ← indentation (cursor.skip 1)
    .ok (chomping, indent, cursor)
  | none => do
    let (indent, cursor) ← indentation cursor
    match indent, cursor.rest.head?.bind chomping? with
    | some _, some chomping => .ok (chomping, indent, cursor.skip 1)
    | _, _ => .ok (.clip, indent, cursor)

/-- Passes blank lines and the indentation of the next line. While the indentation is
not known, all spaces are taken and the widest is remembered. -/
def blockGap (indent : Option Nat) :
    Nat → Nat → List Char → Cursor → Except Fault (Nat × List Char × Cursor)
  | 0, widest, breaks, cursor => .ok (widest, breaks, cursor)
  | fuel + 1, widest, breaks, cursor =>
    let spaces := cursor.take (· = ' ')
    let cursor := match indent with
      | some indent => cursor.skip (min spaces.length (indent - cursor.column))
      | none => cursor.skip spaces.length
    let widest := max widest cursor.column
    let short := match indent with
      | some indent => cursor.column < indent
      | none => true
    if short && cursor.startsWith '\t' then .error .badIndentation
    else if cursor.atBreak then
      let (lineBreak, cursor) := cursor.takeBreak
      blockGap indent fuel widest (breaks ++ lineBreak) cursor
    else .ok (widest, breaks, cursor)

/-- Reads the lines of a block scalar. `done` is the text so far, last character first,
`last` the break of the line before, and `breaks` are those of blank lines after it; a folded
scalar joins two lines by a blank unless one of them starts with a blank. -/
def blockLines (literal : Bool) (indent : Nat) :
    Nat → List Char → Bool → List Char → List Char → Cursor →
      Except Fault (List Char × List Char × List Char × Cursor)
  | 0, done, _, last, breaks, cursor => .ok (done.reverse, last, breaks, cursor)
  | fuel + 1, done, blankBefore, last, breaks, cursor =>
    if cursor.column ≠ indent ∨ cursor.rest.isEmpty then
      .ok (done.reverse, last, breaks, cursor)
    else do
      let blank := cursor.atBlank
      let joint :=
        if !literal && last = ['\n'] && !blankBefore && !blank then
          if breaks.isEmpty then [' '] else breaks
        else last ++ breaks
      let line := cursor.take (fun c => !isBreak c)
      let (last, cursor) := (cursor.skip line.length).takeBreak
      let (_, breaks, cursor) ← blockGap (some indent) (cursor.remaining + 1) 0 [] cursor
      blockLines literal indent fuel ((joint ++ line).reverse ++ done) blank last breaks cursor

/-- Reads a block scalar after its indicator. Its lines are further in than `parent`,
the indentation of the collection around it. -/
def blockText (literal : Bool) (parent : Int) (cursor : Cursor) :
    Except Fault (List Char × Cursor) := do
  let (chomping, increment, cursor) ← blockHeader cursor
  match cursor.finishLine? with
  | none => .error .badBlock
  | some cursor =>
    let given := increment.map fun n => parent.toNat + n
    let (widest, breaks, cursor) ← blockGap given (cursor.remaining + 1) 0 [] cursor
    let indent := given.getD (max widest (max (parent + 1).toNat 1))
    let (done, last, breaks, cursor) ←
      blockLines literal indent (cursor.remaining + 1) [] false [] breaks cursor
    let kept := match chomping with
      | .strip => []
      | .clip => last
      | .keep => last ++ breaks
    .ok (done ++ kept, cursor)

end Yaml
end DocumentQuery
