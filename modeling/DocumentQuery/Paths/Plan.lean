import DocumentQuery.Paths.Segment
import DocumentQuery.Text.Quoted

/-!
# Plans

A path text is classified before any document is looked at: it names the root, a
search for a field at any depth, or a path to walk. A text that does not start with
the root sign has no plan, unless the root is implied.
-/

namespace DocumentQuery

/-- Whether the root sign of a path has to be written. -/
inductive Rooting where
  | written
  | implied
deriving DecidableEq

inductive Plan where
  | unrooted
  | root
  | search (field : String)
  | navigate (path : Path)
deriving DecidableEq

namespace Plan

def dropDot : List Char → List Char
  | '.' :: rest => rest
  | rest => rest

/-- The plan of what follows the root sign: one dot is skipped, a second one asks
for a search, and nothing left is the root itself. -/
def ofTail (tail : List Char) : Plan :=
  match dropDot tail with
  | [] => root
  | '.' :: field => search (String.ofList field)
  | rest => navigate ⟨Segment.scan rest⟩

/-- The plan of a path text. An implied root is put before a text that lacks it,
with a dot unless the text opens with a bracket; the empty text has no root. -/
def ofText (rooting : Rooting) (text : String) : Plan :=
  match text.toList with
  | [] => unrooted
  | '$' :: tail => ofTail tail
  | '[' :: rest =>
    match rooting with
    | .implied => ofTail ('[' :: rest)
    | .written => unrooted
  | text =>
    match rooting with
    | .implied => ofTail ('.' :: text)
    | .written => unrooted

def describe : Plan → String
  | unrooted => "unrooted path"
  | root => "root"
  | search field => "recursive search for " ++ Text.quoted field
  | navigate path => path.text ++ " (" ++ path.length.repr ++ " segment(s))"

end Plan
end DocumentQuery
