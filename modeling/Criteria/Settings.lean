import Criteria.Fault

namespace Criteria

/-- How deep a condition may nest, and whether a numeric text compares with a number. -/
structure Settings where
  maxDepth : Nat
  coerce : Bool
  inBounds : 1 ≤ maxDepth ∧ maxDepth ≤ depthBound
deriving DecidableEq

abbrev Environment := List (String × Text)

def coerceVariable : String := "ELIGIBILITY_COERCE_NUMERIC_STRINGS"

namespace Settings

def default : Settings := ⟨100, false, by decide⟩

/-- The depth limit is an integer numeral within bounds; the other switch is on for `1` alone. -/
def ofEnvironment (env : Environment) : Except Refusal Settings :=
  let raw := (env.lookup depthVariable).getD (Nat.repr default.maxDepth)
  match raw.chars?.bind Numeral.integer? with
  | none => .error (.badDepth raw)
  | some n =>
    -- a negative numeral counts as zero here, which is out of bounds as well
    if h : 1 ≤ n.toNat ∧ n.toNat ≤ depthBound then
      .ok ⟨n.toNat, env.lookup coerceVariable == some "1", h⟩
    else .error (.badDepth raw)

end Settings
end Criteria
