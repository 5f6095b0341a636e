import DocumentQuery.Json.Value
import DocumentQuery.Source.Failure
import DocumentQuery.Yaml.Document

/-!
# YAML values as JSON values

Tags vanish, and keys become texts. Some values have no JSON form: keys that are no
scalar or null, and floats that are not finite. Of two keys with one text the later
counts.
-/

namespace DocumentQuery
namespace Yaml
namespace Value

def keyText? : Value → Option String
  | string s => some s
  | number n => some (numberText n)
  | bool b => some (boolText b)
  | _ => none

def keyText (key : Value) : Except Failure String :=
  match key.keyText? with
  | some text => .ok text
  | none => .error (.conversion ("YAML key " ++ key.describe) "JSON string key")

def nonFiniteText (x : Float) : String :=
  if x.isNaN then "NaN" else if x < 0.0 then "-inf" else "inf"

def numberToJson (n : Number) : Except Failure Json :=
  match n with
  | .integer _ => .ok (.number n)
  | .float x =>
    if x.isFinite then .ok (.number n)
    else .error (.conversion ("YAML number " ++ nonFiniteText x) "JSON number")

mutual

/-- The JSON form of a value. Entries are converted in order, a key before its value,
and the first failure counts. -/
def toJson : Value → Except Failure Json
  | null => .ok .null
  | bool b => .ok (.bool b)
  | number n => numberToJson n
  | string s => .ok (.string s)
  | sequence items => do .ok (.array (← itemsToJson items))
  | mapping entries => do .ok (.object (Entries.ofPairs (← entriesToJson entries)))
  | tagged _ value => toJson value

def itemsToJson : List Value → Except Failure (List Json)
  | [] => .ok []
  | item :: rest => do
    let item ← toJson item
    .ok (item :: (← itemsToJson rest))

def entriesToJson : List (Value × Value) → Except Failure (List (String × Json))
  | [] => .ok []
  | (key, value) :: rest => do
    let key ← keyText key
    let value ← toJson value
    .ok ((key, value) :: (← entriesToJson rest))

end

end Value

def decode (text : String) : Except Failure Json :=
  match Value.ofText text with
  | .ok value => value.toJson
  | .error fault => .error (.yaml fault.message)

end Yaml
end DocumentQuery
