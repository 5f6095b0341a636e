import DocumentQuery.Json.Value
import DocumentQuery.Yaml.Block.Scalar

/-!
# Block text

The written form of a JSON value as a YAML document in block style: an entry or item a
line, nested ones two blanks further in. The items of an array stand right below the
first letter of their key.
-/

namespace DocumentQuery
namespace Yaml
namespace Block

inductive Place where
  /-- Nothing: the value is the document. -/
  | start
  /-- A dash, or one of the marks of a key written out. -/
  | afterMark
  /-- A key and its colon. -/
  | afterKey
deriving DecidableEq

def closeLine (cs : List Char) : List Char :=
  if cs.getLast?.any isBreak then cs else cs ++ ['\n']

/-- A key of one line and no more than this many bytes stands before its colon; any other
is written out with marks of its own. -/
def maxKeyBytes : Nat := 128

def isSimpleKey (key : String) : Bool :=
  !key.toList.any isBreak && key.utf8ByteSize ≤ maxKeyBytes

def gap (place : Place) : List Char := if place = .start then [] else [' ']

def blockGap (place : Place) (indent : Nat) : List Char :=
  match place with
  | .start => []
  | .afterMark => [' ']
  | .afterKey => '\n' :: blanks indent

def deeper (place : Place) (indent : Nat) : Nat :=
  match place with
  | .start => 0
  | _ => indent + 2

def itemIndent (place : Place) (indent : Nat) : Nat :=
  match place with
  | .afterKey => indent
  | _ => deeper place indent

def keyText (indent : Nat) (key : String) : List Char :=
  let written := scalarText (indent + 2) key
  if isSimpleKey key then written ++ [':']
  else '?' :: ' ' :: closeLine written ++ blanks indent ++ [':']

def placeAfter (key : String) : Place := if isSimpleKey key then .afterKey else .afterMark

mutual

/-- The text of a value inside a block that starts in column `indent`, up to the end of
its last line. -/
def valueText (place : Place) (indent : Nat) : Json → List Char
  | .null => gap place ++ "null\n".toList
  | .bool b => gap place ++ (Value.boolText b).toList ++ ['\n']
  | .number n => gap place ++ (Value.numberText n).toList ++ ['\n']
  | .string s => gap place ++ closeLine (scalarText (indent + 2) s)
  | .array [] => gap place ++ "[]\n".toList
  | .array items =>
    let inner := itemIndent place indent
    blockGap place inner ++ itemsText inner items
  | .object [] => gap place ++ "\x7b\x7d\n".toList
  | .object entries =>
    let inner := deeper place indent
    blockGap place inner ++ entriesText inner entries

def itemsText (indent : Nat) : List Json → List Char
  | [] => []
  | [item] => '-' :: valueText .afterMark indent item
  | item :: rest =>
    '-' :: valueText .afterMark indent item ++ blanks indent ++ itemsText indent rest

def entriesText (indent : Nat) : List (String × Json) → List Char
  | [] => []
  | [(key, value)] => keyText indent key ++ valueText (placeAfter key) indent value
  | (key, value) :: rest =>
    keyText indent key ++ valueText (placeAfter key) indent value ++
      blanks indent ++ entriesText indent rest

end

end Block

def encode (value : Json) : String := String.ofList (Block.valueText .start 0 value)

end Yaml
end DocumentQuery
