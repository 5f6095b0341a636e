import DocumentQuery.Json.Entries
import DocumentQuery.Numeral.Number

/-!
# JSON values

The value of a document, the kind of a value and its size.
-/

namespace DocumentQuery

/-- A JSON value. The entries of an object are meant to be sorted, see `Json.Ordered`. -/
inductive Json where
  | null
  | bool (b : Bool)
  | number (n : Number)
  | string (s : String)
  | array (items : List Json)
  | object (entries : List (String × Json))

inductive Kind where
  | null
  | boolean
  | number
  | string
  | array
  | object
  | unknown
deriving DecidableEq

namespace Kind

def all : List Kind := [null, boolean, number, string, array, object, unknown]

def name : Kind → String
  | null => "null"
  | boolean => "boolean"
  | number => "number"
  | string => "string"
  | array => "array"
  | object => "object"
  | unknown => "unknown"

def ofName? (name : String) : Option Kind := all.find? (·.name = name)

def ofJson? : Json → Option Kind
  | .string "null" => some null
  | .string "boolean" => some boolean
  | .string "number" => some number
  | .string "string" => some string
  | .string "array" => some array
  | .string "object" => some object
  | .string "unknown" => some unknown
  | _ => none

def of : Option Json → Kind
  | none => unknown
  | some .null => null
  | some (.bool _) => boolean
  | some (.number _) => number
  | some (.string _) => string
  | some (.array _) => array
  | some (.object _) => object

end Kind

namespace Json

instance : Inhabited Json := ⟨null⟩

/-- The number of items, entries or characters; nothing else has a size. -/
def size : Option Json → Nat
  | some (array items) => items.length
  | some (object entries) => entries.length
  | some (string s) => s.length
  | _ => 0

mutual

def Ordered : Json → Prop
  | array items => OrderedItems items
  | object entries => Entries.Sorted entries ∧ OrderedEntries entries
  | _ => True

def OrderedItems : List Json → Prop
  | [] => True
  | item :: rest => Ordered item ∧ OrderedItems rest

def OrderedEntries : List (String × Json) → Prop
  | [] => True
  | (_, value) :: rest => Ordered value ∧ OrderedEntries rest

end

end Json
end DocumentQuery
