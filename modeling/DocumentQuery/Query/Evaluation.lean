import DocumentQuery.Paths.Plan
import DocumentQuery.Query.Navigation
import DocumentQuery.Query.Search

/-!
# Evaluating paths

What a path text finds in a decoded document.
-/

namespace DocumentQuery

def Plan.execute (plan : Plan) (document : Json) : Option Json :=
  match plan with
  | .unrooted => none
  | .root => some document
  | .search field => document.search field
  | .navigate path => document.navigateAll path.segments

namespace Json

def evaluate (rooting : Rooting) (document : Json) (path : String) : Option Json :=
  (Plan.ofText rooting path).execute document

/-- What is measured: without a path, or with the empty one, the whole document. -/
def target (rooting : Rooting) (document : Json) (path : Option String) : Option Json :=
  match path with
  | none => some document
  | some path => if path = "" then some document else document.evaluate rooting path

/-- Whether a path finds a value; a null counts. -/
def finds (rooting : Rooting) (document : Json) (path : String) : Bool :=
  (document.evaluate rooting path).isSome

def sizeAt (rooting : Rooting) (document : Json) (path : Option String) : Nat :=
  size (document.target rooting path)

def kindAt (rooting : Rooting) (document : Json) (path : Option String) : Kind :=
  Kind.of (document.target rooting path)

end Json
end DocumentQuery
