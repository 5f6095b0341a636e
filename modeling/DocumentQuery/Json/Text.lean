import DocumentQuery.Json.Value
import DocumentQuery.Numeral.Layout

/-!
# JSON text

The written form of a JSON value, on one line without blanks or over several lines.
-/

namespace DocumentQuery
namespace Json

/-- Positional from `1e-5` below `1e16`; a positive exponent has its sign. -/
def floatLayout : Numeral.Layout where
  leastPoint := -4
  greatestPoint := 16
  exponentPlus := "+"
  infinite := "inf"
  notANumber := "NaN"

def numberText : Number → String
  | .integer n => n.val.repr
  | .float x => floatLayout.text x

/-- Inside quotes only the quote, the backslash and controls below the space are
escaped. -/
def quotedChar (c : Char) : List Char :=
  match c with
  | '"' => ['\\', '"']
  | '\\' => ['\\', '\\']
  | '\x08' => ['\\', 'b']
  | '\t' => ['\\', 't']
  | '\n' => ['\\', 'n']
  | '\x0c' => ['\\', 'f']
  | '\r' => ['\\', 'r']
  | c =>
    if c < ' ' then
      ['\\', 'u', '0', '0', Nat.digitChar (c.toNat / 16), Nat.digitChar (c.toNat % 16)]
    else [c]

def quoted (s : String) : List Char := '"' :: s.toList.flatMap quotedChar ++ ['"']

mutual

def compactChars : Json → List Char
  | null => "null".toList
  | bool true => "true".toList
  | bool false => "false".toList
  | number n => (numberText n).toList
  | string s => quoted s
  | array items => '[' :: compactItems items ++ [']']
  | object entries => '\x7b' :: compactEntries entries ++ ['\x7d']

def compactItems : List Json → List Char
  | [] => []
  | [item] => compactChars item
  | item :: rest => compactChars item ++ ',' :: compactItems rest

def compactEntries : List (String × Json) → List Char
  | [] => []
  | [(key, value)] => quoted key ++ ':' :: compactChars value
  | (key, value) :: rest => quoted key ++ ':' :: compactChars value ++ ',' :: compactEntries rest

end

def newline (level : Nat) : List Char := '\n' :: List.replicate (2 * level) ' '

mutual

/-- The text of a value over several lines, nested values two blanks further in; empty
arrays and objects stay closed. -/
def prettyChars (level : Nat) : Json → List Char
  | array [] => "[]".toList
  | array items => '[' :: prettyItems (level + 1) items ++ newline level ++ [']']
  | object [] => "\x7b\x7d".toList
  | object entries => '\x7b' :: prettyEntries (level + 1) entries ++ newline level ++ ['\x7d']
  | value => compactChars value

def prettyItems (level : Nat) : List Json → List Char
  | [] => []
  | [item] => newline level ++ prettyChars level item
  | item :: rest => newline level ++ prettyChars level item ++ ',' :: prettyItems level rest

def prettyEntries (level : Nat) : List (String × Json) → List Char
  | [] => []
  | [(key, value)] => newline level ++ quoted key ++ ':' :: ' ' :: prettyChars level value
  | (key, value) :: rest =>
    newline level ++ quoted key ++ ':' :: ' ' :: prettyChars level value ++
      ',' :: prettyEntries level rest

end

def compact (value : Json) : String := String.ofList value.compactChars

def pretty (value : Json) : String := String.ofList (value.prettyChars 0)

end Json
end DocumentQuery
