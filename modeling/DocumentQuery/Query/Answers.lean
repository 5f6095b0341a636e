import DocumentQuery.Json.Decode
import DocumentQuery.Query.Evaluation

/-!
# Questions about a document

A document is queried as a decoded value or as JSON text. Text that is no JSON holds
nothing: every path is absent in it, and it has neither size nor kind.
-/

namespace DocumentQuery

inductive Input where
  | value (document : Json)
  | text (content : String)

namespace Input

def document? : Input → Option Json
  | .value document => some document
  | .text content => Json.ofText? content

variable (rooting : Rooting) (input : Input)

def get (path : String) : Option Json := input.document?.bind (·.evaluate rooting path)

def finds (path : String) : Bool := (input.document?.map (·.finds rooting path)).getD false

def size (path : Option String) : Nat :=
  (input.document?.map (·.sizeAt rooting path)).getD 0

def kind (path : Option String) : Kind :=
  (input.document?.map (·.kindAt rooting path)).getD .unknown

/-- What each of several paths finds, sorted by path. The input is decoded once. -/
def getMany (paths : List String) : Entries (Option Json) :=
  let document := input.document?
  Entries.ofPairs (paths.map fun path => (path, document.bind (·.evaluate rooting path)))

end Input
end DocumentQuery
