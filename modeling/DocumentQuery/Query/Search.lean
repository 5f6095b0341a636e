import DocumentQuery.Json.Value

/-!
# Searching a field at any depth

A search goes through a document in pre-order: an object before everything inside it,
entries in key order, items by index. It ends at the first object that has the field,
whatever is stored there. `search` keeps a stack of values still to be visited, and
`find?` says the same by recursion on the document.
-/

namespace DocumentQuery
namespace Json

mutual

def weight : Json → Nat
  | array items => 1 + itemsWeight items
  | object entries => 1 + entriesWeight entries
  | _ => 1

def itemsWeight : List Json → Nat
  | [] => 0
  | item :: rest => weight item + itemsWeight rest

def entriesWeight : List (String × Json) → Nat
  | [] => 0
  | (_, value) :: rest => weight value + entriesWeight rest

end

theorem weight_pos (value : Json) : 0 < value.weight := by
  cases value <;> simp only [weight] <;> omega

theorem itemsWeight_append (xs ys : List Json) :
    itemsWeight (xs ++ ys) = itemsWeight xs + itemsWeight ys := by
  induction xs with
  | nil => simp [itemsWeight]
  | cons x xs ih => simp [itemsWeight, ih]; omega

theorem itemsWeight_values (entries : List (String × Json)) :
    itemsWeight (Entries.values entries) = entriesWeight entries := by
  induction entries with
  | nil => simp [Entries.values, itemsWeight, entriesWeight]
  | cons entry entries ih =>
    simp only [Entries.values, List.map_cons] at ih ⊢
    simp [itemsWeight, entriesWeight, ih]

/-- Puts children on the stack of values still to be visited, the last of them first,
so that the first is visited next. -/
def push (children pending : List Json) : List Json :=
  children.reverse.foldl (fun stack child => child :: stack) pending

theorem push_eq_append (children pending : List Json) :
    push children pending = children ++ pending := by
  simp [push]

def searchAmong (field : String) : List Json → Option Json
  | [] => none
  | .object entries :: pending =>
    match entries.lookup field with
    | some value => some value
    | none => searchAmong field (push (Entries.values entries) pending)
  | .array items :: pending => searchAmong field (push items pending)
  | value :: pending =>
    have := weight_pos value
    searchAmong field pending
termination_by pending => itemsWeight pending
decreasing_by
  · simp only [push_eq_append, itemsWeight, weight, itemsWeight_append, itemsWeight_values]
    omega
  · simp only [push_eq_append, itemsWeight, weight, itemsWeight_append]
    omega
  · simp only [itemsWeight]; omega

def search (field : String) (document : Json) : Option Json := searchAmong field [document]

mutual

/-- The value under the field in the first object that has it, in pre-order. -/
def find? (field : String) : Json → Option Json
  | object entries => (entries.lookup field).or (findInEntries? field entries)
  | array items => findInItems? field items
  | _ => none

def findInItems? (field : String) : List Json → Option Json
  | [] => none
  | item :: rest => (find? field item).or (findInItems? field rest)

def findInEntries? (field : String) : List (String × Json) → Option Json
  | [] => none
  | (_, value) :: rest => (find? field value).or (findInEntries? field rest)

end

end Json
end DocumentQuery
