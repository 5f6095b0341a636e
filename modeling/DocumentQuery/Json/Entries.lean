/-!
# Entries under text keys

The entries of an object are kept in ascending key order, each key once. Texts are
compared by code points, which is also the order of their UTF-8 bytes.
-/

namespace DocumentQuery

abbrev Entries (α : Type) := List (String × α)

namespace Entries

variable {α : Type}

def insert (key : String) (value : α) : Entries α → Entries α
  | [] => [(key, value)]
  | (k, v) :: rest =>
    if key < k then (key, value) :: (k, v) :: rest
    else if key = k then (key, value) :: rest
    else (k, v) :: insert key value rest

/-- Sorts pairs by key; of two pairs with one key the later counts. -/
def ofPairs (pairs : List (String × α)) : Entries α :=
  pairs.foldl (fun entries pair => insert pair.1 pair.2 entries) []

def values (entries : Entries α) : List α := entries.map Prod.snd

def Sorted (entries : Entries α) : Prop := entries.Pairwise (fun a b => a.1 < b.1)

end Entries
end DocumentQuery
