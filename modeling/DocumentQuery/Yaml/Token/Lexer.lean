import DocumentQuery.Yaml.Token.Scalar
import DocumentQuery.Yaml.Token.Tag

/-!
# Cutting a YAML text into tokens

Block collections are opened and closed by indentation. Whether a scalar is a key shows
only at the colon behind it, so the lexer remembers where a key may have started and
puts its token there once the colon is found.
-/

namespace DocumentQuery
namespace Yaml

/-- A place where a key may have started: the number of tokens before it and where it
stands. A required key is an error unless a colon follows it. -/
structure Candidate where
  token : Nat
  offset : Nat
  line : Nat
  column : Nat
  required : Bool

/-- The lexer's view of a text: where it reads, the tokens so far, the indentation of
the open block collections, the candidates for keys of each level of flow collections,
innermost first, and whether a key may start here. -/
structure Lexer where
  cursor : Cursor
  tokens : Array Token
  indent : Int
  outer : List Int
  candidates : List (Option Candidate)
  keyAllowed : Bool

namespace Lexer

def start (text : List Char) : Lexer := ⟨.ofText text, #[], -1, [], [none], true⟩

def inFlow (lx : Lexer) : Bool := 1 < lx.candidates.length

def push (token : Token) (lx : Lexer) : Lexer := { lx with tokens := lx.tokens.push token }

def indicator (width : Nat) (token : Token) (lx : Lexer) : Lexer :=
  { lx with cursor := lx.cursor.skip width, tokens := lx.tokens.push token }

def dropCandidate (lx : Lexer) : Except Fault Lexer :=
  match lx.candidates with
  | some candidate :: rest =>
    if candidate.required then .error .missingValue
    else .ok { lx with candidates := none :: rest }
  | _ => .ok lx

def markCandidate (lx : Lexer) : Except Fault Lexer :=
  if lx.keyAllowed then do
    let { offset, line, column, .. } := lx.cursor
    let required := !lx.inFlow && lx.indent = column
    let lx ← lx.dropCandidate
    let candidate := ⟨lx.tokens.size, offset, line, column, required⟩
    .ok { lx with candidates := some candidate :: lx.candidates.drop 1 }
  else .ok lx

/-- Gives up candidates that are too far back: a key stands on one line and takes at
most 1024 bytes. -/
def dropStale (lx : Lexer) : Except Fault Lexer := do
  let candidates ← lx.candidates.mapM fun
    | some candidate =>
      if candidate.line < lx.cursor.line ∨ candidate.offset + 1024 < lx.cursor.offset then
        if candidate.required then .error Fault.missingValue else .ok none
      else .ok (some candidate)
    | none => .ok none
  .ok { lx with candidates }

def closeBlocks (column : Int) : Int → List Int → Array Token → Int × List Int × Array Token
  | indent, [], tokens => (indent, [], tokens)
  | indent, next :: outer, tokens =>
    if column < indent then closeBlocks column next outer (tokens.push .blockEnd)
    else (indent, next :: outer, tokens)

def unwind (column : Int) (lx : Lexer) : Lexer :=
  if lx.inFlow then lx
  else
    let (indent, outer, tokens) := closeBlocks column lx.indent lx.outer lx.tokens
    { lx with indent, outer, tokens }

/-- Opens a block collection at a column that is further in than the open ones; its
token becomes the one of the given number. -/
def openBlock (column : Nat) (token : Token) (position : Nat) (lx : Lexer) : Lexer :=
  if !lx.inFlow && lx.indent < column then
    { lx with
      indent := column
      outer := lx.indent :: lx.outer
      tokens := lx.tokens.insertIdxIfInBounds position token }
  else lx

/-- Passes blanks, comments and breaks, and a byte order mark at the start of a line, which
takes a column. After a break in a block collection a key may start; tabs cannot take the
place of indentation. -/
def skipSpace : Nat → Lexer → Lexer
  | 0, lx => lx
  | fuel + 1, lx =>
    let cursor :=
      if lx.cursor.column = 0 ∧ lx.cursor.startsWith '\ufeff' then lx.cursor.skip 1
      else lx.cursor
    let tabs := lx.inFlow || !lx.keyAllowed
    let cursor := cursor.skipWhile (fun c => c = ' ' || (tabs && c = '\t'))
    let cursor :=
      if cursor.startsWith '#' then cursor.skipWhile (fun c => !isBreak c) else cursor
    if cursor.atBreak then
      skipSpace fuel
        { lx with cursor := cursor.skipBreak, keyAllowed := lx.keyAllowed || !lx.inFlow }
    else { lx with cursor }

def outermost (lx : Lexer) : Except Fault Lexer := do
  let lx ← (lx.unwind (-1)).dropCandidate
  .ok { lx with keyAllowed := false }

def openFlow (token : Token) (lx : Lexer) : Except Fault Lexer := do
  let lx ← lx.markCandidate
  let lx := lx.indicator 1 token
  .ok { lx with candidates := none :: lx.candidates, keyAllowed := true }

def closeFlow (token : Token) (lx : Lexer) : Except Fault Lexer := do
  let lx ← lx.dropCandidate
  let lx := lx.indicator 1 token
  .ok { lx with
    candidates := if lx.inFlow then lx.candidates.drop 1 else lx.candidates
    keyAllowed := false }

def flowEntry (lx : Lexer) : Except Fault Lexer := do
  let lx ← lx.dropCandidate
  .ok { lx.indicator 1 .flowEntry with keyAllowed := true }

def blockEntry (lx : Lexer) : Except Fault Lexer := do
  if !lx.inFlow && !lx.keyAllowed then .error Fault.misplacedEntry
  let lx := lx.openBlock lx.cursor.column .blockSequence lx.tokens.size
  let lx ← lx.dropCandidate
  .ok { lx.indicator 1 .blockEntry with keyAllowed := true }

def explicitKey (lx : Lexer) : Except Fault Lexer := do
  if !lx.inFlow && !lx.keyAllowed then .error Fault.misplacedKey
  let lx := lx.openBlock lx.cursor.column .blockMapping lx.tokens.size
  let lx ← lx.dropCandidate
  .ok { lx.indicator 1 .key with keyAllowed := !lx.inFlow }

/-- A colon: its key is the candidate, if there is one, and otherwise announced before
or empty. -/
def valueMark (lx : Lexer) : Except Fault Lexer :=
  match lx.candidates with
  | some candidate :: rest =>
    let lx := { lx with
      candidates := none :: rest
      tokens := lx.tokens.insertIdxIfInBounds candidate.token .key
      keyAllowed := false }
    .ok ((lx.openBlock candidate.column .blockMapping candidate.token).indicator 1 .value)
  | _ => do
    if !lx.inFlow && !lx.keyAllowed then .error Fault.misplacedValue
    let lx := lx.openBlock lx.cursor.column .blockMapping lx.tokens.size
    .ok { lx.indicator 1 .value with keyAllowed := !lx.inFlow }

/-- A token whose text is read by a function of its own and which may be a key. -/
def keyLike (read : Cursor → Except Fault (Token × Cursor)) (lx : Lexer) :
    Except Fault Lexer := do
  let lx ← lx.markCandidate
  let (token, cursor) ← read lx.cursor
  .ok { lx with cursor, tokens := lx.tokens.push token, keyAllowed := false }

def quoted (single : Bool) (cursor : Cursor) : Except Fault (Token × Cursor) := do
  let (text, cursor) ← quotedText single (cursor.remaining + 1) [] (cursor.skip 1)
  .ok (.scalar false (String.ofList text), cursor)

def plain (lx : Lexer) : Except Fault Lexer := do
  let lx ← lx.markCandidate
  let (text, broken, cursor) ←
    plainText lx.inFlow (lx.indent + 1).toNat (lx.cursor.remaining + 1) [] .empty lx.cursor
  .ok { lx with
    cursor
    tokens := lx.tokens.push (.scalar true (String.ofList text))
    keyAllowed := broken }

def block (literal : Bool) (lx : Lexer) : Except Fault Lexer := do
  let lx ← lx.dropCandidate
  let (text, cursor) ← blockText literal lx.indent (lx.cursor.skip 1)
  .ok { lx with
    cursor
    tokens := lx.tokens.push (.scalar false (String.ofList text))
    keyAllowed := true }

def isIndicator (c : Char) : Bool := "-?:,[]\x7b\x7d#&*!|>'\"%@\x60".toList.contains c

def startsPlain (inFlow : Bool) (c : Char) (rest : List Char) : Bool :=
  (!isSpace c && !isIndicator c) || (c = '-' && !rest.head?.any isBlank) ||
    (!inFlow && (c = '?' || c = ':') && !endsWord rest)

def readToken (c : Char) (rest : List Char) (lx : Lexer) : Except Fault Lexer :=
  let ends := endsWord rest
  if lx.cursor.column = 0 ∧ c = '%' then do
    let lx ← lx.outermost
    let (token, cursor) ← directive (lx.cursor.skip 1)
    .ok { lx with cursor, tokens := lx.tokens.push token }
  else if lx.cursor.atMarker '-' then do .ok ((← lx.outermost).indicator 3 .documentStart)
  else if lx.cursor.atMarker '.' then do .ok ((← lx.outermost).indicator 3 .documentEnd)
  else if c = '[' then lx.openFlow .flowSequence
  else if c = '\x7b' then lx.openFlow .flowMapping
  else if c = ']' then lx.closeFlow .flowSequenceEnd
  else if c = '\x7d' then lx.closeFlow .flowMappingEnd
  else if c = ',' then lx.flowEntry
  else if c = '-' ∧ ends then lx.blockEntry
  else if c = '?' ∧ (lx.inFlow || ends) then lx.explicitKey
  else if c = ':' ∧ (lx.inFlow || ends) then lx.valueMark
  else if c = '*' then
    lx.keyLike fun cursor => do
      let (name, cursor) ← anchorName (cursor.skip 1)
      .ok (.alias name, cursor)
  else if c = '&' then
    lx.keyLike fun cursor => do
      let (name, cursor) ← anchorName (cursor.skip 1)
      .ok (.anchor name, cursor)
  else if c = '!' then lx.keyLike (tagToken lx.inFlow)
  else if c = '|' ∧ !lx.inFlow then lx.block true
  else if c = '>' ∧ !lx.inFlow then lx.block false
  else if c = '\'' then lx.keyLike (quoted true)
  else if c = '"' then lx.keyLike (quoted false)
  else if startsPlain lx.inFlow c rest then lx.plain
  else .error .strayCharacter

def readTokens : Nat → Lexer → Except Fault (Array Token)
  | 0, _ => .error .strayCharacter
  | fuel + 1, lx => do
    let lx ← (skipSpace (lx.cursor.remaining + 1) lx).dropStale
    let lx := lx.unwind lx.cursor.column
    match lx.cursor.rest with
    | [] => .ok (← lx.outermost).tokens
    | c :: rest => readTokens fuel (← lx.readToken c rest)

end Lexer

def isAllowed (c : Char) : Bool :=
  let code := c.toNat
  c = '\t' || c = '\n' || c = '\r' || (0x20 ≤ code && code ≤ 0x7E) || code = 0x85 ||
    (0xA0 ≤ code && code ≤ 0xFFFD) || 0x10000 ≤ code

def tokens (text : List Char) : Except Fault (List Token) :=
  if text.all isAllowed then do
    .ok (← Lexer.readTokens (text.length + 1) (.start text)).toList
  else .error .forbiddenCharacter

end Yaml
end DocumentQuery
