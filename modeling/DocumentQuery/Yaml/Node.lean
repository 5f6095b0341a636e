import DocumentQuery.Yaml.Token

/-!
# Nodes of a YAML document

The tree of a document before its scalars are understood. `ρ` is what an alias refers
by: the name of an anchor as written, later the number of an anchor.
-/

namespace DocumentQuery
namespace Yaml

structure Properties where
  anchor : Option String
  tag : Option TagBytes

def Properties.none : Properties := ⟨.none, .none⟩

def Properties.isNone (properties : Properties) : Bool :=
  properties.anchor.isNone && properties.tag.isNone

inductive Node (ρ : Type) where
  | alias (target : ρ)
  | scalar (properties : Properties) (plain : Bool) (text : String)
  | sequence (properties : Properties) (items : List (Node ρ))
  | mapping (properties : Properties) (entries : List (Node ρ × Node ρ))

namespace Node

def absent {ρ : Type} : Node ρ := .scalar .none true ""

mutual

/-- The number of starts and ends of collections, scalars and aliases. -/
def eventCount {ρ : Type} : Node ρ → Nat
  | .alias _ => 1
  | .scalar _ _ _ => 1
  | .sequence _ items => 2 + itemsEventCount items
  | .mapping _ entries => 2 + entriesEventCount entries

def itemsEventCount {ρ : Type} : List (Node ρ) → Nat
  | [] => 0
  | item :: rest => eventCount item + itemsEventCount rest

def entriesEventCount {ρ : Type} : List (Node ρ × Node ρ) → Nat
  | [] => 0
  | (key, value) :: rest => eventCount key + eventCount value + entriesEventCount rest

end

end Node
end Yaml
end DocumentQuery
