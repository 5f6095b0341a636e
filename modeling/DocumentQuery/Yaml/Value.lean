import DocumentQuery.Numeral.Layout
import DocumentQuery.Numeral.Number
import DocumentQuery.Text.Quoted

/-!
# YAML values

The value of a YAML document: like a JSON value, but keys are values of any kind, and a
value may carry a tag.
-/

namespace DocumentQuery
namespace Yaml

/-- A YAML value. The entries of a mapping stand in document order. -/
inductive Value where
  | null
  | bool (b : Bool)
  | number (n : Number)
  | string (s : String)
  | sequence (items : List Value)
  | mapping (entries : List (Value × Value))
  | tagged (tag : String) (value : Value)

namespace Value

instance : Inhabited Value := ⟨null⟩

/-- Integers and floats differ; a float that is no number equals itself. -/
def sameNumber : Number → Number → Bool
  | .integer m, .integer n => m = n
  | .float x, .float y => x == y || (x.isNaN && y.isNaN)
  | _, _ => false

mutual

/-- Whether two values are equal as keys. The order of entries does not count. -/
def same : Value → Value → Bool
  | null, null => true
  | bool a, bool b => a = b
  | number m, number n => sameNumber m n
  | string s, string t => s = t
  | sequence xs, sequence ys => sameItems xs ys
  | mapping xs, mapping ys => xs.length = ys.length && entriesWithin xs ys
  | tagged s x, tagged t y => s = t && same x y
  | _, _ => false

def sameItems : List Value → List Value → Bool
  | [], [] => true
  | x :: xs, y :: ys => same x y && sameItems xs ys
  | _, _ => false

def entriesWithin : List (Value × Value) → List (Value × Value) → Bool
  | [], _ => true
  | (key, value) :: rest, others =>
    others.any (fun other => same key other.1 && same value other.2) &&
      entriesWithin rest others

end

/-- Positional from `1e-5` below `1e16`; a positive exponent has no sign. -/
def floatLayout : Numeral.Layout where
  leastPoint := -4
  greatestPoint := 16
  exponentPlus := ""
  infinite := ".inf"
  notANumber := ".nan"

def numberText : Number → String
  | .integer n => n.val.repr
  | .float x => floatLayout.text x

def boolText (b : Bool) : String := if b then "true" else "false"

def keyOrDescription (key : Value) (description : String) : String :=
  match key with
  | bool b => boolText b
  | number n => numberText n
  | string s => Text.quoted s
  | _ => description

mutual

def describe : Value → String
  | null => "Null"
  | bool b => "Bool(" ++ boolText b ++ ")"
  | number n => "Number(" ++ numberText n ++ ")"
  | string s => "String(" ++ Text.quoted s ++ ")"
  | sequence items => "Sequence [" ++ describeItems items ++ "]"
  | mapping entries => "Mapping \x7b" ++ describeEntries entries ++ "\x7d"
  | tagged tag value =>
    "TaggedValue \x7b tag: !" ++ tag ++ ", value: " ++ describe value ++ " \x7d"

def describeItems : List Value → String
  | [] => ""
  | [item] => describe item
  | item :: rest => describe item ++ ", " ++ describeItems rest

def describeEntries : List (Value × Value) → String
  | [] => ""
  | [(key, value)] => keyOrDescription key (describe key) ++ ": " ++ describe value
  | (key, value) :: rest =>
    keyOrDescription key (describe key) ++ ": " ++ describe value ++ ", " ++ describeEntries rest

end

end Value
end Yaml
end DocumentQuery
