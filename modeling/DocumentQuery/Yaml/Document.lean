import DocumentQuery.Yaml.Node.Anchors
import DocumentQuery.Yaml.Node.Grammar
import DocumentQuery.Yaml.Scalar
import DocumentQuery.Yaml.Token.Lexer

/-!
# Documents

The value of the one document of a YAML text. Aliases are followed here; how often this
may happen is bounded by the size of the document, and how deep by the limit on nested
collections, so that neither a cycle nor an explosion of aliases gets far.
-/

namespace DocumentQuery
namespace Yaml

/-- Work that counts down the aliases that may still be followed. -/
abbrev Following := StateT Nat (Except Fault)

/-- The name of a local tag, without the exclamation mark, and without a second one
unless nothing else is left. Bytes that are no text make no tag. -/
def localTagName? (tag : TagBytes) : Option String :=
  match tag with
  | 33 :: rest =>
    let shown := if rest.isEmpty then tag else rest
    (String.fromUTF8? ⟨shown.toArray⟩).map fun name =>
      match name.toList with
      | '!' :: rest => if rest.isEmpty then name else String.ofList rest
      | _ => name
  | _ => none

def Node.properties {ρ : Type} : Node ρ → Properties
  | .alias _ => .none
  | .scalar properties _ _ => properties
  | .sequence properties _ => properties
  | .mapping properties _ => properties

/-- The node an alias refers to, at the cost of one step; other nodes are themselves. -/
def follow (anchored : Anchored) (node : Node Nat) : Following (Node Nat) := do
  match node with
  | .alias number =>
    match ← get with
    | 0 => throw .tooManyAliases
    | left + 1 =>
      set left
      match anchored.target? number with
      | some target => return target
      | none => throw .undefinedAlias
  | _ => return node

def isNewKey (key : Value) (entries : List (Value × Value)) : Bool :=
  entries.all fun entry => !entry.1.same key

def distinctKeys : List (Value × Value) → Except Fault Unit
  | [] => .ok ()
  | (key, _) :: rest => if isNewKey key rest then distinctKeys rest else .error .repeatedKey

/-- The value of a node that may open `depth` more collections within one another. A local
tag is kept around it; a scalar below such a tag is read as if it had none. -/
def valueOfNode (anchored : Anchored) (depth : Nat) (node : Node Nat) : Following Value := do
  let node ← follow anchored node
  let shown := node.properties.tag.bind localTagName?
  let value ←
    match node, depth with
    | .alias _, _ => throw .undefinedAlias
    | .scalar properties plain text, _ =>
      liftM (scalarValue (if shown.isSome then none else properties.tag) plain text)
    | .sequence _ items, depth + 1 => do
      pure (.sequence (← items.mapM fun item => valueOfNode anchored depth item))
    | .mapping _ entries, depth + 1 => do
      let entries ← entries.mapM fun (key, value) => do
        let key ← valueOfNode anchored depth key
        let value ← valueOfNode anchored depth value
        pure (key, value)
      liftM (distinctKeys entries)
      pure (.mapping entries)
    | .sequence _ _, 0 => throw .tooDeep
    | .mapping _ _, 0 => throw .tooDeep
  match shown with
  | some tag => return .tagged tag value
  | none => return value

/-- The value of the document of a text; a text without a document is null. -/
def Value.ofText (text : String) : Except Fault Value := do
  match ← readDocument (← tokens text.toList) with
  | none => return .null
  | some root =>
    let (root, _, anchored) ← root.numberAliases []
    let (value, _) ← (valueOfNode anchored maxDepth root).run (100 * root.eventCount)
    return value

end Yaml
end DocumentQuery
