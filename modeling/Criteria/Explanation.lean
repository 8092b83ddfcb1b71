import Criteria.Fault.Report
import Criteria.Matching
import Criteria.Resolution

namespace Criteria

inductive Level where
  | debug
  | warning
deriving DecidableEq, Repr

def Level.name : Level → String
  | debug => "DEBUG"
  | warning => "WARNING"

structure LogEntry where
  level : Level
  text : Text
deriving DecidableEq, Repr

/-- What came of a run, and what it logged until then. -/
structure Run (α : Type) where
  log : List LogEntry
  outcome : Except Fault α

namespace Run

def after {α : Type} (log : List LogEntry) (run : Run α) : Run α := ⟨log ++ run.log, run.outcome⟩

def ofOutcome {α : Type} (outcome : Except Fault α) : Run α := ⟨[], outcome⟩

end Run

def verdictEntry (path : Text) (satisfied : Bool) : LogEntry :=
  ⟨.debug, "Criteria path " ++ Text.quoted path ++ if satisfied then " satisfied" else " not satisfied"⟩

/-- What is logged when a path cannot be evaluated: refusals are, breakdowns are not. -/
def faultEntries (path : Text) : Fault → List LogEntry
  | .refusal r => [⟨.warning, "Evaluation of criteria path " ++ Text.quoted path ++ " failed: " ++ r.text⟩]
  | .breakdown _ => []

abbrev Criterion := Text × Value

def criteriaOfEntries : List (Value × Value) → Except Fault (List Criterion)
  | [] => .ok []
  | (.text path, condition) :: entries =>
    (criteriaOfEntries entries).map fun cs => (path, condition) :: cs
  | (key, _) :: _ =>
    key.literal >>= fun l => .error (.refusal (.keyNotText key.typeName l))

def checkedCriteria (record criteria : Value) : Except Fault (List Criterion) :=
  match record, criteria with
  | .mapping _, .mapping entries => criteriaOfEntries entries
  | _, _ => .error (.refusal (.notMappings record.kind criteria.kind))

/-- What a path leads to, and whether it satisfies the condition. -/
def evaluate (settings : Settings) (record : Value) (c : Criterion) : Except Fault (Value × Bool) := do
  let found ← (record.resolve settings.maxDepth c.1).mapError .refusal
  let satisfied ← holds settings c.2 found 0
  return (found, satisfied)

def eligibleFrom (settings : Settings) (record : Value) : List Criterion → Run Bool
  | [] => .ofOutcome (.ok true)
  | c :: cs =>
    match evaluate settings record c with
    | .error f => .ofOutcome (.error f)
    | .ok (_, true) => (eligibleFrom settings record cs).after [verdictEntry c.1 true]
    | .ok (_, false) => ⟨[verdictEntry c.1 false], .ok false⟩

def isEligible (settings : Settings) (record criteria : Value) : Run Bool :=
  match checkedCriteria record criteria with
  | .error f => .ofOutcome (.error f)
  | .ok cs => eligibleFrom settings record cs

mutual

/-- A value as results show it: sequences as lists, and null for what is not there. -/
def Value.rendered : Value → Value
  | .undefined => .null
  | .list items => .list (Value.allRendered items)
  | .tuple items => .list (Value.allRendered items)
  | v => v

def Value.allRendered : List Value → List Value
  | [] => []
  | v :: vs => v.rendered :: Value.allRendered vs

end

structure Outcome where
  path : Text
  matched : Bool
  resolved : Value
  isDefined : Bool

def Outcome.of (path : Text) (found : Value) (matched : Bool) : Outcome :=
  ⟨path, matched, found.rendered, found.kind != .undefined⟩

def Outcome.summary (o : Outcome) : Except Fault Text :=
  (if o.isDefined then o.resolved.display else .ok "undefined").map fun got =>
    o.path ++ (if o.matched then " pass" else " fail") ++ " (got: " ++ got ++ ")"

structure Explanation where
  outcomes : List Outcome
  text : Text

namespace Explanation

def failedPathsOf (outcomes : List Outcome) : List Text :=
  (outcomes.filter fun o => !o.matched).map Outcome.path

def failedPaths (e : Explanation) : List Text := failedPathsOf e.outcomes

def eligible (e : Explanation) : Bool := e.failedPaths.isEmpty

def textOf (outcomes : List Outcome) : Except Fault Text :=
  if outcomes.isEmpty then .ok "Eligible: no criteria (vacuously satisfied)"
  else do
    let summaries ← outcomes.mapM Outcome.summary
    let failed := failedPathsOf outcomes
    let verdict : Text := if failed.isEmpty then "Eligible" else "Not eligible"
    let checks : Text := "checks: " ++ Text.join " AND " summaries
    let failures : List Text := if failed.isEmpty then [] else ["failed: " ++ Text.join ", " failed]
    return Text.join "; " (verdict :: checks :: failures)

def ofOutcomes (outcomes : List Outcome) : Except Fault Explanation :=
  (textOf outcomes).map fun text => ⟨outcomes, text⟩

end Explanation

def outcomesFrom (settings : Settings) (record : Value) : List Criterion → Run (List Outcome)
  | [] => .ofOutcome (.ok [])
  | c :: cs =>
    match evaluate settings record c with
    | .error f => ⟨faultEntries c.1 f, .error f⟩
    | .ok (found, matched) =>
      let rest := outcomesFrom settings record cs
      ⟨verdictEntry c.1 matched :: rest.log, rest.outcome.map (Outcome.of c.1 found matched :: ·)⟩

def explain (settings : Settings) (record criteria : Value) : Run Explanation :=
  match checkedCriteria record criteria with
  | .error f => .ofOutcome (.error f)
  | .ok cs =>
    let run := outcomesFrom settings record cs
    ⟨run.log, run.outcome.bind Explanation.ofOutcomes⟩

end Criteria
