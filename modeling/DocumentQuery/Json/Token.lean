import DocumentQuery.Json.Fault
import DocumentQuery.Json.Value

/-!
# Tokens of a JSON text

A text is cut into punctuation, strings and scalars. What is wrong inside a string or a
scalar stays in its token, so that it counts only if a value is wanted at its place.
-/

namespace DocumentQuery
namespace Json

inductive Lexeme where
  | openArray
  | closeArray
  | openObject
  | closeObject
  | comma
  | colon
  | string (text : Except Fault String)
  | scalar (value : Except Fault Json)
  | stray

/-- A lexeme and the text from its first character on. -/
structure Token where
  lexeme : Lexeme
  start : List Char

def hexDigit? (c : Char) : Option Nat :=
  if c.isDigit then some (c.toNat - '0'.toNat)
  else if 'a' ≤ c ∧ c ≤ 'f' then some (c.toNat - 'a'.toNat + 10)
  else if 'A' ≤ c ∧ c ≤ 'F' then some (c.toNat - 'A'.toNat + 10)
  else none

/-- Four hexadecimal digits. Four bytes are looked at before they are judged. -/
def fourHexDigits (text : List Char) : Except Fault (Nat × List Char) :=
  if byteLength (text.take 4) < 4 then .error (.before .endInString [])
  else
    match text with
    | a :: b :: c :: d :: rest =>
      match hexDigit? a, hexDigit? b, hexDigit? c, hexDigit? d with
      | some a, some b, some c, some d => .ok (((a * 16 + b) * 16 + c) * 16 + d, rest)
      | _, _, _, _ => .error ⟨.badEscape, text, 4⟩
    | _ => .error ⟨.badEscape, text, 4⟩

/-- The low half of a surrogate pair, which has to follow at once. -/
def lowSurrogate (high : Nat) (text : List Char) : Except Fault (Char × List Char) :=
  match text with
  | [] => .error (.before .endInString [])
  | ['\\'] => .error (.before .endInString [])
  | '\\' :: 'u' :: rest => do
    let (low, rest) ← fourHexDigits rest
    if 0xDC00 ≤ low ∧ low ≤ 0xDFFF then
      .ok (Char.ofNat ((high - 0xD800) * 0x400 + (low - 0xDC00) + 0x10000), rest)
    else .error (.before .loneSurrogate rest)
  | '\\' :: rest => .error (.here .cutSurrogatePair rest)
  | _ => .error (.here .cutSurrogatePair text)

def escape (text : List Char) : Except Fault (Char × List Char) :=
  match text with
  | [] => .error (.before .endInString [])
  | '"' :: rest => .ok ('"', rest)
  | '\\' :: rest => .ok ('\\', rest)
  | '/' :: rest => .ok ('/', rest)
  | 'b' :: rest => .ok ('\x08', rest)
  | 'f' :: rest => .ok ('\x0c', rest)
  | 'n' :: rest => .ok ('\n', rest)
  | 'r' :: rest => .ok ('\r', rest)
  | 't' :: rest => .ok ('\t', rest)
  | 'u' :: rest => do
    let (unit, rest) ← fourHexDigits rest
    if 0xDC00 ≤ unit ∧ unit ≤ 0xDFFF then .error (.before .loneSurrogate rest)
    else if 0xD800 ≤ unit ∧ unit ≤ 0xDBFF then lowSurrogate unit rest
    else .ok (Char.ofNat unit, rest)
  | _ => .error (.here .badEscape text)

/-- Reads a string after its opening quote; `done` holds the characters before, last
first. Each round takes at least one character, so the length of the text bounds the
rounds. -/
def stringRest : Nat → List Char → List Char → Except Fault (String × List Char)
  | 0, _, _ => .error (.before .endInString [])
  | fuel + 1, done, text =>
    match text with
    | [] => .error (.before .endInString [])
    | '"' :: rest => .ok (String.ofList done.reverse, rest)
    | '\\' :: rest => do
      let (c, rest) ← escape rest
      stringRest fuel (c :: done) rest
    | c :: rest =>
      if c < ' ' then .error (.here .controlCharacter text)
      else stringRest fuel (c :: done) rest

/-- The digits read so far, as far as a word of 64 bits can hold them, and the power of
ten to scale them by. -/
structure Significand where
  value : Nat
  exponent : Int

def Significand.hasRoom (s : Significand) (digit : Char) : Bool :=
  s.value * 10 + (digit.toNat - '0'.toNat) < UInt64.size

def Significand.push (s : Significand) (digit : Char) (exponent : Int) : Significand :=
  ⟨s.value * 10 + (digit.toNat - '0'.toNat), exponent⟩

/-- Digits before the point: once the word is full, each further digit counts as a
factor of ten. -/
def Significand.addWhole (s : Significand) : List Char → Significand
  | [] => s
  | d :: rest =>
    if s.hasRoom d then (s.push d s.exponent).addWhole rest
    else ⟨s.value, s.exponent + (rest.length + 1 : Nat)⟩

/-- Digits after the point: once the word is full, further digits are dropped. -/
def Significand.addFraction (s : Significand) : List Char → Significand
  | [] => s
  | d :: rest => if s.hasRoom d then (s.push d (s.exponent - 1)).addFraction rest else s

/-- `x * 10 ^ exponent` in float arithmetic, or nothing if that is infinite. Powers of
ten beyond `10 ^ 308` are no floats, so a smaller number is divided in steps. -/
def scaleByTen (x : Float) (exponent : Int) : Option Float :=
  if exponent.natAbs ≤ 308 then
    if 0 ≤ exponent then
      let scaled := x * Float.ofScientific 1 false exponent.natAbs
      if scaled.isInf then none else some scaled
    else some (x / Float.ofScientific 1 false exponent.natAbs)
  else if x == 0.0 then some x
  else if 0 ≤ exponent then none
  else scaleByTen (x / 1e308) (exponent + 308)
termination_by exponent.natAbs
decreasing_by omega

def signed (negative : Bool) (x : Float) : Float := if negative then -x else x

def floatOf (negative : Bool) (s : Significand) (rest : List Char) :
    Except Fault (Number × List Char) :=
  match scaleByTen s.value.toUInt64.toFloat s.exponent with
  | some x => .ok (.float (signed negative x), rest)
  | none => .error (.before .numberOutOfRange rest)

/-- Exponents are summed up in a signed word of 32 bits. The digit that overflows it
decides: the number is zero, or too large. -/
def exponentOf (negative : Bool) (s : Significand) (down : Bool) (exponent : Nat) :
    List Char → Except Fault (Number × List Char)
  | [] =>
    let total := if down then s.exponent - exponent else s.exponent + exponent
    floatOf negative ⟨s.value, total⟩ []
  | c :: rest =>
    if c.isDigit then
      let next := exponent * 10 + (c.toNat - '0'.toNat)
      if next < 2147483648 then exponentOf negative s down next rest
      else if s.value = 0 ∨ down then
        .ok (.float (signed negative 0.0), rest.dropWhile Char.isDigit)
      else .error (.before .numberOutOfRange rest)
    else
      let total := if down then s.exponent - exponent else s.exponent + exponent
      floatOf negative ⟨s.value, total⟩ (c :: rest)

def exponentRest (negative : Bool) (s : Significand) (text : List Char) :
    Except Fault (Number × List Char) :=
  let (down, digits) := match text with
    | '+' :: rest => (false, rest)
    | '-' :: rest => (true, rest)
    | _ => (false, text)
  match digits with
  | [] => .error (.before .endInValue [])
  | c :: _ =>
    if c.isDigit then exponentOf negative s down 0 digits
    else .error (.here .badNumber digits)

def exponentOrEnd (negative : Bool) (s : Significand) (text : List Char) :
    Except Fault (Number × List Char) :=
  match text with
  | 'e' :: rest => exponentRest negative s rest
  | 'E' :: rest => exponentRest negative s rest
  | _ => floatOf negative s text

def fractionRest (negative : Bool) (s : Significand) (text : List Char) :
    Except Fault (Number × List Char) :=
  match text with
  | [] => .error (.before .endInValue [])
  | c :: _ =>
    if c.isDigit then
      exponentOrEnd negative (s.addFraction (text.takeWhile Char.isDigit))
        (text.dropWhile Char.isDigit)
    else .error (.here .badNumber text)

/-- A number without point and exponent is an integer if a word holds it; minus zero is
a float. -/
def wholeNumber (negative : Bool) (s : Significand) (rest : List Char) :
    Except Fault (Number × List Char) :=
  let n : Int := if negative then -s.value else s.value
  match WordInt.ofInt? n with
  | some word =>
    if s.exponent = 0 ∧ ¬(negative ∧ s.value = 0) then .ok (.integer word, rest)
    else floatOf negative s rest
  | none => floatOf negative s rest

def unsignedNumber (negative : Bool) (text : List Char) : Except Fault (Number × List Char) :=
  match text with
  | [] => .error (.before .endInValue [])
  | c :: rest =>
    if ¬c.isDigit then .error (.here .badNumber text)
    else
      let digits := if c = '0' then [c] else text.takeWhile Char.isDigit
      let rest := if c = '0' then rest else text.dropWhile Char.isDigit
      let s := Significand.addWhole ⟨0, 0⟩ digits
      match rest with
      | '.' :: fraction => fractionRest negative s fraction
      | 'e' :: exponent => exponentRest negative s exponent
      | 'E' :: exponent => exponentRest negative s exponent
      | next :: _ =>
        if next.isDigit then .error (.here .badNumber rest) else wholeNumber negative s rest
      | [] => wholeNumber negative s rest

def keywordRest (value : Json) : List Char → List Char → Except Fault (Json × List Char)
  | [], text => .ok (value, text)
  | _ :: _, [] => .error (.before .endInValue [])
  | letter :: letters, c :: rest =>
    if c = letter then keywordRest value letters rest
    else .error (.here .noKeyword (c :: rest))

def scalar? (c : Char) (rest : List Char) : Option (Except Fault (Json × List Char)) :=
  match c with
  | 'n' => some (keywordRest null "ull".toList rest)
  | 't' => some (keywordRest (bool true) "rue".toList rest)
  | 'f' => some (keywordRest (bool false) "alse".toList rest)
  | '-' => some ((unsignedNumber true rest).map fun (n, rest) => (number n, rest))
  | c =>
    if c.isDigit then
      some ((unsignedNumber false (c :: rest)).map fun (n, rest) => (number n, rest))
    else none

/-- The lexeme that starts with a character, and the text behind it. A lexeme with a
fault ends the text. The text is at most `bound` characters long. -/
def lexeme (bound : Nat) (c : Char) (rest : List Char) : Lexeme × List Char :=
  match c with
  | '[' => (.openArray, rest)
  | ']' => (.closeArray, rest)
  | '\x7b' => (.openObject, rest)
  | '\x7d' => (.closeObject, rest)
  | ',' => (.comma, rest)
  | ':' => (.colon, rest)
  | '"' =>
    match stringRest (bound + 1) [] rest with
    | .ok (text, rest) => (.string (.ok text), rest)
    | .error fault => (.string (.error fault), [])
  | c =>
    match scalar? c rest with
    | some (.ok (value, rest)) => (.scalar (.ok value), rest)
    | some (.error fault) => (.scalar (.error fault), [])
    | none => (.stray, [])

def isBlank (c : Char) : Bool := c = ' ' || c = '\t' || c = '\n' || c = '\r'

def tokensWithin : Nat → List Char → List Token
  | 0, _ => []
  | fuel + 1, text =>
    match text with
    | [] => []
    | c :: rest =>
      if isBlank c then tokensWithin fuel rest
      else
        let (lexeme, behind) := lexeme fuel c rest
        ⟨lexeme, text⟩ :: tokensWithin fuel behind

def tokens (text : List Char) : List Token := tokensWithin text.length text

end Json
end DocumentQuery
