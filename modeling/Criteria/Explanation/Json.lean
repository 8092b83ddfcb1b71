import Criteria.Explanation
import Criteria.Json

namespace Criteria

abbrev Dump := Value → Except Fault Json

def Outcome.json (dump : Dump) (o : Outcome) : Except Fault Json :=
  (dump o.resolved).map fun resolved =>
    .object [("path", .string o.path), ("matched", .bool o.matched), ("resolved", resolved),
      ("resolved_defined", .bool o.isDefined)]

namespace Explanation

def verdictMembers (e : Explanation) : List (Text × Json) :=
  [("failed_paths", .array (e.failedPaths.map .string)), ("explanation_text", .string e.text)]

def members (dump : Dump) (e : Explanation) : Except Fault (List (Text × Json)) :=
  (e.outcomes.mapM (Outcome.json dump)).map fun outcomes =>
    ("eligible", .bool e.eligible) :: ("outcomes", .array outcomes) :: e.verdictMembers

def json (dump : Dump) (e : Explanation) : Except Fault Json := (e.members dump).map .object

end Explanation
end Criteria
