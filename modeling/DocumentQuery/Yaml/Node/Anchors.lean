import DocumentQuery.Yaml.Node

/-!
# Anchors

An anchor gets the number of different names met before it. Naming a second node by
the same name gives the name a new number, which a later new name may take over; an
alias keeps the number its name has where it stands, and refers to the last node that
got this number.
-/

namespace DocumentQuery
namespace Yaml

abbrev AnchorNumbers := List (String × Nat)

def AnchorNumbers.assign (numbers : AnchorNumbers) (name : String) : AnchorNumbers :=
  (name, numbers.length) :: numbers.filter (·.1 ≠ name)

/-- Nodes with numbered anchors, in the order in which they start. -/
abbrev Anchored := List (Nat × Node Nat)

def Anchored.target? (anchored : Anchored) (number : Nat) : Option (Node Nat) :=
  anchored.reverse.lookup number

namespace Node

def enter (numbers : AnchorNumbers) (properties : Properties) : AnchorNumbers × Option Nat :=
  match properties.anchor with
  | some name => (numbers.assign name, some numbers.length)
  | none => (numbers, none)

def record (number : Option Nat) (node : Node Nat) : Anchored :=
  match number with
  | some number => [(number, node)]
  | none => []

mutual

/-- Replaces the names in aliases by numbers, and lists the anchored nodes. -/
def numberAliases (numbers : AnchorNumbers) :
    Node String → Except Fault (Node Nat × AnchorNumbers × Anchored)
  | .alias name =>
    match numbers.lookup name with
    | some number => .ok (.alias number, numbers, [])
    | none => .error .undefinedAlias
  | .scalar properties plain text =>
    let (numbers, number) := enter numbers properties
    let node := .scalar properties plain text
    .ok (node, numbers, record number node)
  | .sequence properties items => do
    let (numbers, number) := enter numbers properties
    let (items, numbers, anchored) ← numberItems numbers items
    let node := .sequence properties items
    .ok (node, numbers, record number node ++ anchored)
  | .mapping properties entries => do
    let (numbers, number) := enter numbers properties
    let (entries, numbers, anchored) ← numberEntries numbers entries
    let node := .mapping properties entries
    .ok (node, numbers, record number node ++ anchored)

def numberItems (numbers : AnchorNumbers) :
    List (Node String) → Except Fault (List (Node Nat) × AnchorNumbers × Anchored)
  | [] => .ok ([], numbers, [])
  | item :: rest => do
    let (item, numbers, anchored) ← numberAliases numbers item
    let (rest, numbers, further) ← numberItems numbers rest
    .ok (item :: rest, numbers, anchored ++ further)

def numberEntries (numbers : AnchorNumbers) :
    List (Node String × Node String) →
      Except Fault (List (Node Nat × Node Nat) × AnchorNumbers × Anchored)
  | [] => .ok ([], numbers, [])
  | (key, value) :: rest => do
    let (key, numbers, inKey) ← numberAliases numbers key
    let (value, numbers, inValue) ← numberAliases numbers value
    let (rest, numbers, further) ← numberEntries numbers rest
    .ok ((key, value) :: rest, numbers, inKey ++ inValue ++ further)

end

end Node
end Yaml
end DocumentQuery
