/-!
# Regular expressions

An expression is looked for anywhere in a text. Of the language of expressions this is the part
that path patterns are written in: a character or the dot at one place of the text, the star
behind either of them for a run of places, the two anchors for the two ends of the text, and
the backslash, behind which a sign stands for itself.
-/

namespace DocumentQuery
namespace Expression

/-- What one place of a text may hold. The dot takes no line break. -/
inductive Atom where
  | dot
  | character (c : Char)
deriving DecidableEq

inductive Item where
  | start
  | stop
  | one (atom : Atom)
  | many (atom : Atom)
deriving DecidableEq

def Atom.takes : Atom → Char → Bool
  | dot, c => c ≠ '\n'
  | character d, c => c = d

/-- The characters that mean more than themselves in some place of the language. -/
def signs : List Char :=
  ['\\', '.', '+', '*', '?', '(', ')', '|', '[', ']', '\x7b', '\x7d', '^', '$', '#', '&', '-', '~']

def escape (c : Char) : List Char := if signs.contains c then ['\\', c] else [c]

end Expression

/-- What is looked for in a text: items that match one behind the other. -/
structure Expression where
  items : List Expression.Item
deriving DecidableEq

namespace Expression

structure Draft where
  /-- The items, the last one first. -/
  items : List Item := []
  /-- Whether a backslash waits for its sign. -/
  escaped : Bool := false

/-- The signs of the rest of the language: repetitions, groups, choices and sets. -/
def foreignSigns : List Char := ['+', '?', '(', ')', '|', '[', '\x7b']

def Draft.add (draft : Draft) (c : Char) : Option Draft :=
  if draft.escaped then
    if signs.contains c then some ⟨.one (.character c) :: draft.items, false⟩ else none
  else
    match c with
    | '\\' => some ⟨draft.items, true⟩
    | '^' => some ⟨.start :: draft.items, false⟩
    | '$' => some ⟨.stop :: draft.items, false⟩
    | '.' => some ⟨.one .dot :: draft.items, false⟩
    | '*' =>
      match draft.items with
      | .one atom :: items => some ⟨.many atom :: items, false⟩
      | _ => none
    | c =>
      if foreignSigns.contains c then none
      else some ⟨.one (.character c) :: draft.items, false⟩

/-- The expression a text describes, if it is one of this part of the language. -/
def ofText? (text : String) : Option Expression := do
  let draft ← text.toList.foldlM Draft.add {}
  if draft.escaped then none else some ⟨draft.items.reverse⟩

def Item.hasDot : Item → Bool
  | one .dot => true
  | many .dot => true
  | _ => false

def maxDots : Nat := 30000

/-- A stand-in for what the compiler of expressions has room for, whose own measure is not
described here. -/
def isSmall (expression : Expression) : Bool := expression.items.countP Item.hasDot < maxDots

/-- One row of the table of matches. The row of some items tells for each rest of a text, the
longest first, whether they match from there on; this is the row with one more item in front.
At the start of the text no character stands before the rest. -/
def Item.extendRow (item : Item) (atStart : Bool) : List Char → List Bool → List Bool
  | [], row =>
    let here :=
      match item with
      | start => atStart && row.headD false
      | one _ => false
      | stop | many _ => row.headD false
    [here]
  | c :: rest, row =>
    let shorter := extendRow item false rest row.tail
    let here :=
      match item with
      | start => atStart && row.headD false
      | stop => false
      | one atom => atom.takes c && row.tail.headD false
      | many atom => row.headD false || (atom.takes c && shorter.headD false)
    here :: shorter

def row (items : List Item) (text : List Char) : List Bool :=
  items.foldr (fun item row => item.extendRow true text row) (List.replicate (text.length + 1) true)

def isMatch (expression : Expression) (text : String) : Bool :=
  (row expression.items text.toList).any id

end Expression
end DocumentQuery
