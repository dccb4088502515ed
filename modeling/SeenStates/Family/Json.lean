import SeenStates.Family
import SeenStates.Json.Value
import SeenStates.Limits

/-!
# Hash families as JSON

A hash family is its index. A number that is no index of a family is refused.
-/
namespace SeenStates.Family

/-- A hash family as JSON. -/
def toJson (f : Family) : Json := .nat f.val

/-- A hash family from JSON. -/
def ofJson? (v : Json) : Option Family := (v.natBelow? countLimit).bind ofNat?

end SeenStates.Family
