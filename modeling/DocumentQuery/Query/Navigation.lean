import DocumentQuery.Json.Value
import DocumentQuery.Paths.Segment

/-!
# Walking a path

A segment leads from a value to the value inside it that it names, or nowhere.
-/

namespace DocumentQuery
namespace Json

/-- One step. A wildcard stays on an array and finds nothing elsewhere. -/
def navigate (segment : Segment) (value : Json) : Option Json :=
  match segment, value with
  | .field name, .object entries => entries.lookup name
  | .index position, .array items => items[position.toNat]?
  | .wildcard, .array items => some (.array items)
  | _, _ => none

def navigateAll (segments : List Segment) (value : Json) : Option Json :=
  segments.foldlM (fun value segment => navigate segment value) value

end Json
end DocumentQuery
