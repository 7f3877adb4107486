/-
# Reports of issues

The JSON form of issues: the place as a list of names and indices, and the name of the cause.

Key definitions: `Issue.toJson`, `Issue.report`.
-/
import TokenLedger.Json.Value
import TokenLedger.Schema.Issue

namespace TokenLedger

def Segment.toJson : Segment → Json
  | .field name => .str name
  | .item index => .whole index

def Issue.toJson (i : Issue) : Json :=
  .obj [("loc", .arr (i.place.map Segment.toJson)), ("type", .str i.cause.name)]

/-- The JSON form of a list of issues. -/
def Issue.report (issues : List Issue) : Json :=
  .arr (issues.map Issue.toJson)

end TokenLedger
