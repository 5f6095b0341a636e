import DocumentQuery.Numeral.Nearest
import DocumentQuery.Yaml.Token
import DocumentQuery.Yaml.Value

/-!
# Meaning of scalars

A plain scalar is a null, a truth value, an integer, a float or else a string, by its
text. A tag of the core schema asks for one of these.
-/

namespace DocumentQuery
namespace Yaml

def isNullText (text : String) : Bool := ["null", "Null", "NULL", "~"].contains text

def boolOfText? (text : String) : Option Bool :=
  if ["true", "True", "TRUE"].contains text then some true
  else if ["false", "False", "FALSE"].contains text then some false
  else none

def digitValue? (base : Nat) (c : Char) : Option Nat :=
  let value :=
    if c.isDigit then c.toNat - '0'.toNat
    else if 'a' ≤ c ∧ c ≤ 'f' then c.toNat - 'a'.toNat + 10
    else if 'A' ≤ c ∧ c ≤ 'F' then c.toNat - 'A'.toNat + 10
    else 16
  if value < base then some value else none

def digitsValue? (base : Nat) (digits : List Char) : Option Nat :=
  if digits.isEmpty then none
  else digits.foldlM (fun n c => (digitValue? base c).map (n * base + ·)) 0

def isPaddedDigits (text : List Char) : Bool :=
  let digits := match text with
    | '+' :: rest => rest
    | '-' :: rest => rest
    | _ => text
  match digits with
  | '0' :: rest => !rest.isEmpty && rest.all Char.isDigit
  | _ => false

/-- The integer a text spells: a sign, if any, and digits, decimal or after `0x`, `0o`
or `0b`. -/
def integerOfText? (text : List Char) : Option Int :=
  let (negative, digits) := match text with
    | '+' :: rest => (false, rest)
    | '-' :: rest => (true, rest)
    | _ => (false, text)
  let magnitude := match digits with
    | '0' :: 'x' :: rest => digitsValue? 16 rest
    | '0' :: 'o' :: rest => digitsValue? 8 rest
    | '0' :: 'b' :: rest => digitsValue? 2 rest
    | _ => if isPaddedDigits text then none else digitsValue? 10 digits
  magnitude.map fun n => if negative then -(n : Int) else n

/-- An integer beyond a word of 64 bits is refused if 128 bits can hold it; one that is
larger still is no integer. -/
def wordOfInteger? (n : Int) : Except Fault (Option WordInt) :=
  match WordInt.ofInt? n with
  | some word => .ok (some word)
  | none =>
    if -Int.pow 2 127 ≤ n ∧ n < Int.pow 2 128 then .error .integerTooLarge else .ok none

def integerScalar? (text : List Char) : Except Fault (Option WordInt) :=
  match integerOfText? text with
  | some n => wordOfInteger? n
  | none => .ok none

/-- The float a text spells. Infinities and the value that is no number have names; a
numeral too large for a float spells none. -/
def floatOfText? (text : List Char) : Option Float :=
  let (negative, rest) := match text with
    | '+' :: rest => (false, rest)
    | '-' :: rest => (true, rest)
    | _ => (false, text)
  if [".inf", ".Inf", ".INF"].contains (String.ofList rest) then
    some (if negative then -(1.0 / 0.0) else 1.0 / 0.0)
  else if [".nan", ".NaN", ".NAN"].contains (String.ofList text) then some (0.0 / 0.0)
  else
    match (Numeral.Spelling.ofText? rest).bind Numeral.Spelling.nearest? with
    | some x => some (if negative then -x else x)
    | none => none

def plainValue (text : String) : Except Fault Value := do
  if text = "" || isNullText text then return .null
  if let some b := boolOfText? text then return .bool b
  if let some n ← integerScalar? text.toList then return .number (.integer n)
  if !isPaddedDigits text.toList then
    if let some x := floatOfText? text.toList then return .number (.float x)
  return .string text

def coreTag (name : String) : TagBytes :=
  ("tag:yaml.org,2002:" ++ name).toList.map fun c => UInt8.ofNat c.toNat

def isLocalTag (tag : TagBytes) : Bool := tag.head? = some 33

/-- The value of a scalar with a tag. A tag of the core schema forces the type; a local
tag changes nothing, and any other one makes a string. -/
def taggedScalar (tag : TagBytes) (plain : Bool) (text : String) : Except Fault Value :=
  if tag = coreTag "bool" then
    match boolOfText? text with
    | some b => .ok (.bool b)
    | none => .error .tagMismatch
  else if tag = coreTag "int" then do
    match ← integerScalar? text.toList with
    | some n => .ok (.number (.integer n))
    | none => .error .tagMismatch
  else if tag = coreTag "float" then
    match floatOfText? text.toList with
    | some x => .ok (.number (.float x))
    | none => .error .tagMismatch
  else if tag = coreTag "null" then
    if isNullText text then .ok .null else .error .tagMismatch
  else if isLocalTag tag && plain then plainValue text
  else .ok (.string text)

def scalarValue (tag : Option TagBytes) (plain : Bool) (text : String) : Except Fault Value :=
  match tag with
  | some tag => taggedScalar tag plain text
  | none => if plain then plainValue text else .ok (.string text)

end Yaml
end DocumentQuery
