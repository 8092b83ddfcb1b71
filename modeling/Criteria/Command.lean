import Criteria.Arguments
import Criteria.Document
import Criteria.Explanation.Json
import Criteria.Value.Plain

namespace Criteria

/-- How the command ends: eligible, not eligible, or with bad input. -/
inductive Exit where
  | eligible
  | notEligible
  | invalid
deriving DecidableEq, Repr

def Exit.code : Exit → Nat
  | eligible => 0
  | notEligible => 1
  | invalid => 2

def Exit.ofVerdict (eligible : Bool) : Exit := if eligible then .eligible else .notEligible

def Exit.all : List Exit := [eligible, notEligible, invalid]

/-- What the command printed, and how it ended; a fault that is no answer leaves no exit code. -/
structure Transcript where
  output : String
  errors : String
  ending : Except Fault Exit

/-- What the command relies on: the dump of values, and what its output makes of a text, which it may refuse. -/
structure Host where
  dump : Dump
  encode : Text → Except Fault String

/-- The dump that follows values to its limit, and output in strict UTF-8. -/
def Host.standard : Host where
  dump := Value.plain
  encode s := (Text.encodeUtf8 s).mapError fun run => .breakdown (.notEncodable run)

namespace Command

def evaluatorSource : String := "eligibility.evaluator"

def commandSource : String := "eligibility.cli"

def logLine (source : String) (e : LogEntry) : String :=
  Text.escaped (e.level.name ++ " " ++ source ++ ": " ++ e.text ++ "\n")

/-- The lines of a log. Only on request does it hold more than warnings. -/
def logLines (verbose : Bool) (source : String) (log : List LogEntry) : String :=
  String.join ((log.filter fun e => verbose || e.level == .warning).map (logLine source))

def check (files : Files) (env : Environment) (args : Arguments) : Run (Value × Explanation) :=
  match do
    -- the record is loaded first, so its faults are reported before those of the criteria
    let record ← Document.load files .record args.record args.parseDates
    let criteria ← Document.load files .criteria args.criteria args.parseDates
    let settings ← (Settings.ofEnvironment env).mapError .refusal
    return (record, criteria, settings) with
  | .error f => .ofOutcome (.error f)
  | .ok (record, criteria, settings) =>
    let run := explain settings record criteria
    ⟨run.log, run.outcome.map fun e => (criteria, e)⟩

def plainTexts (args : Arguments) (e : Explanation) : List Text :=
  let verdict : Text := if e.eligible then "ELIGIBLE" else "NOT ELIGIBLE"
  (verdict ++ "\n") :: if args.explain then [e.text ++ "\n"] else []

def jsonText (j : Json) : Text := j.render Json.indented ++ "\n"

/-- A verdict as JSON, with the fingerprint of the criteria. The outcomes are dumped in any case, and shown
if they are asked for. -/
def verdictJson (host : Host) (args : Arguments) (criteria : Value) (e : Explanation) : Except Fault Json := do
  let members ← e.members host.dump
  let hash ← fingerprint criteria
  let shown := members.filter fun m => args.explain || m.1 != Text.ofString "outcomes"
  let last : Text × Json := ("criteria_hash", .string hash)
  return .object (shown ++ [last])

def verdictTexts (host : Host) (args : Arguments) (criteria : Value) (e : Explanation) :
    Except Fault (List Text) :=
  if args.json then (verdictJson host args criteria e).map fun j => [jsonText j] else .ok (plainTexts args e)

def failureText (args : Arguments) (text : Text) (members : List (Text × Json)) : Text :=
  if args.json then jsonText (.object [("eligible", .null), ("error", .object members)])
  else "ERROR: " ++ text ++ "\n"

def refusalMembers (r : Refusal) : List (Text × Json) :=
  let detail : Json :=
    match r.report.detail with
    | .text s => .string s
    | .number (.int n) => .int n
    | _ => .null
  let shared : List (Text × Json) :=
    [("error_type", .string r.category.name), ("message", .string r.message),
      ("error_code", .string r.category.code),
      ("context", .object (r.context.map fun (name, s) => (Text.ofString name, .string s)))]
  shared ++ r.category.detailName?.toList.map fun name => (Text.ofString name, detail)

/-- The members of an object about a fault that counts as bad input: any refusal, and a missing file. -/
def faultMembers? : Fault → Option (List (Text × Json))
  | .refusal r => some (refusalMembers r)
  | .breakdown b =>
    match b with
    | .missingFile .. => some [("error_type", .string b.name), ("message", .string b.message)]
    | _ => none

/-- What comes out when texts are printed one after the other, up to the first that is refused. -/
def put (host : Host) : List Text → String × Except Fault Unit
  | [] => ("", .ok ())
  | t :: ts =>
    match host.encode t with
    | .error f => ("", .error f)
    | .ok s => (s ++ (put host ts).1, (put host ts).2)

def printing (host : Host) (texts : List Text) (errors : String) (exit : Exit) : Transcript :=
  ⟨(put host texts).1, errors, (put host texts).2.map fun _ => exit⟩

def failed (host : Host) (args : Arguments) (errors : String) (f : Fault) : Transcript :=
  match faultMembers? f with
  | none => ⟨"", errors, .error f⟩
  | some members =>
    let warning := logLine commandSource ⟨.warning, "Eligibility check failed: " ++ f.text⟩
    printing host [failureText args f.text members] (errors ++ warning) .invalid

def succeeded (host : Host) (args : Arguments) (errors : String) (criteria : Value) (e : Explanation) :
    Transcript :=
  match verdictTexts host args criteria e with
  | .ok texts => printing host texts errors (.ofVerdict e.eligible)
  | .error f => ⟨"", errors, .error f⟩

def runArguments (host : Host) (files : Files) (env : Environment) (args : Arguments) : Transcript :=
  let run := check files env args
  let errors := logLines args.verbose evaluatorSource run.log
  match run.outcome with
  | .ok (criteria, e) => succeeded host args errors criteria e
  | .error f => failed host args errors f

def run (host : Host) (files : Files) (env : Environment) (args : List Text) : Transcript :=
  match Arguments.parse args with
  | .error problem => ⟨"", Text.escaped (Arguments.complaint problem), .ok .invalid⟩
  | .ok none => printing host [Arguments.help] "" .eligible
    -- help ends the command as a success
  | .ok (some args) => runArguments host files env args

end Command
end Criteria
