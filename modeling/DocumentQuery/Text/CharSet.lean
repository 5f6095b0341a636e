/-!
# Sets of characters by their edges

A large set of characters is given by ascending code points at which membership
changes: the first member, the first non-member after it, and so on.
-/

namespace DocumentQuery
namespace Text

/-- Ascending code points at which membership changes, starting outside the set. -/
abbrev CharSet := List Nat

/-- A character is a member if an odd number of edges lie at or before it. -/
def CharSet.contains (edges : CharSet) (c : Char) : Bool :=
  (edges.takeWhile (· ≤ c.toNat)).length % 2 = 1

end Text
end DocumentQuery
