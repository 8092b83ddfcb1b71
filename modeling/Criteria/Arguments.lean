import Criteria.FileTree
import Criteria.Text.Digit
import Criteria.Text.Quoted

namespace Criteria

inductive Switch where
  | help
  | record
  | criteria
  | parseDates
  | explain
  | json
  | verbose
deriving DecidableEq, Repr

namespace Switch

def all : List Switch := [help, record, criteria, parseDates, explain, json, verbose]

def long : Switch → String
  | help => "--help"
  | record => "--record"
  | criteria => "--criteria"
  | parseDates => "--parse-dates"
  | explain => "--explain"
  | json => "--json"
  | verbose => "--verbose"

def short? : Switch → Option Char
  | help => some 'h'
  | verbose => some 'v'
  | _ => none

def ofLetter? (p : CodePoint) : Option Switch := all.find? fun s => s.short?.any fun c => p == c

def takesValue : Switch → Bool
  | record => true
  | criteria => true
  | _ => false

def title (s : Switch) : String :=
  match s.short? with
  | some c => String.ofList ['-', c, '/'] ++ s.long
  | none => s.long

end Switch

structure Arguments where
  record : FilePath
  criteria : FilePath
  parseDates : Bool
  explain : Bool
  json : Bool
  verbose : Bool
deriving DecidableEq

inductive ArgumentProblem where
  | ambiguous (argument : Text) (matching : List Switch)
  | valueMissing (s : Switch)
  /-- A value is attached to a switch that takes none. -/
  | valueIgnored (s : Switch) (value : Text)
  | required (missing : List Switch)
  | unrecognized (arguments : List Text)
deriving DecidableEq, Repr

def ArgumentProblem.message : ArgumentProblem → Text
  | ambiguous argument matching =>
    "ambiguous option: " ++ argument ++ " could match " ++ String.intercalate ", " (matching.map Switch.long)
  | valueMissing s => "argument " ++ s.title ++ ": expected one argument"
  | valueIgnored s value =>
    "argument " ++ s.title ++ ": ignored explicit argument " ++ Text.quoted value
  | required missing =>
    "the following arguments are required: " ++ String.intercalate ", " (missing.map Switch.title)
  | unrecognized arguments => "unrecognized arguments: " ++ Text.join " " arguments

namespace Arguments

inductive Word where
  /-- No option, though it may be the value of one. -/
  | plain (text : Text)
  /-- Two hyphens: what follows are no options. -/
  | separator
  | long (s : Switch) (value : Option Text)
  /-- A switch by its letter, and what follows the letter. -/
  | short (s : Switch) (rest : Text)
  /-- An option that there is none of. -/
  | unknown (text : Text)

/-- A hyphen and digits, with a point before the last of them or none. One line feed may follow. -/
def isNegativeNumber (s : Text) : Bool :=
  let isDigit (p : CodePoint) : Bool := p.char?.any fun c => (Text.digitValue? c).isSome
  match s with
  | .char '-' :: body =>
    let body := if body.getLast? == some '\n' then body.dropLast else body
    match body.dropWhile isDigit with
    | [] => !body.isEmpty
    | .char '.' :: fraction => !fraction.isEmpty && fraction.all isDigit
    | _ => false
  | _ => false

/-- An argument that names no option: a plain one if it looks like a number or has a space. -/
def unnamed (s : Text) : Word :=
  if isNegativeNumber s || s.contains (.char ' ') then .plain s else .unknown s

def word (argument : Text) : Except ArgumentProblem Word :=
  match argument with
  | .char '-' :: .char '-' :: [] => .ok .separator
  | .char '-' :: .char '-' :: _ =>
    let name := argument.takeWhile (· != .char '=')
    let value := (argument.dropWhile (· != .char '=')).tail?
    match Switch.all.filter fun s => name == s.long with
    | s :: _ => .ok (.long s value)
    | [] =>
      match Switch.all.filter fun s => name.isPrefixOf s.long with
      | [] => .ok (unnamed argument)
      | [s] => .ok (.long s value)
      | matching => .error (.ambiguous argument matching)
  | .char '-' :: p :: rest =>
    match Switch.ofLetter? p with
    | some s => .ok (.short s rest)
    | none => .ok (unnamed argument)
  | _ => .ok (.plain argument)

def words : List Text → Except ArgumentProblem (List Word)
  | [] => .ok []
  | a :: as => do
    match ← word a with
    | .separator => return .separator :: as.map .plain
    | w =>
      let ws ← words as
      return w :: ws

/-- Switches that stand together, and what is left of them when a letter is unknown. -/
def cluster (s : Switch) : Text → Except ArgumentProblem (List Switch × Option Text)
  | [] => .ok ([s], none)
  | .char '=' :: value => .error (.valueIgnored s value)
  | .char '-' :: value => .error (.valueIgnored s (.char '-' :: value))
  | p :: rest =>
    match Switch.ofLetter? p with
    | some next => (cluster next rest).map fun (switches, left) => (s :: switches, left)
    | none => .ok ([s], some (.char '-' :: p :: rest))

/-- What the arguments so far come to. The latest value counts. -/
structure Collected where
  record : Option Text
  criteria : Option Text
  switches : List Switch
  extras : List Text

def Collected.none : Collected := ⟨Option.none, Option.none, [], []⟩

def Collected.setValue (c : Collected) (s : Switch) (value : Text) : Collected :=
  if s = .record then { c with record := some value } else { c with criteria := some value }

def Collected.addExtra (c : Collected) (argument : Text) : Collected :=
  { c with extras := c.extras ++ [argument] }

def Collected.addSwitches (c : Collected) (switches : List Switch) : Collected :=
  { c with switches := c.switches ++ switches }

/-- What the arguments come to; nothing when help is asked for, which ends it. -/
def collect (c : Collected) : List Word → Except ArgumentProblem (Option Collected)
  | [] => .ok (some c)
  | .plain argument :: ws => collect (c.addExtra argument) ws
  | .unknown argument :: ws => collect (c.addExtra argument) ws
  | .separator :: ws => collect (c.addExtra "--") ws
  | .short s rest :: ws =>
    match cluster s rest with
    | .error problem => .error problem
    | .ok (switches, left) =>
      if switches.contains .help then .ok none
      else collect ((left.elim c c.addExtra).addSwitches switches) ws
  | .long s value :: ws =>
    if s.takesValue then
      match value, ws with
      | some value, ws => collect (c.setValue s value) ws
      | none, .plain value :: ws => collect (c.setValue s value) ws
      | none, _ => .error (.valueMissing s)
    else
      match value with
      | some value => .error (.valueIgnored s value)
      | none => if s = .help then .ok none else collect (c.addSwitches [s]) ws

/-- What to do, if nothing is missing and nothing is left over. -/
def finish (c : Collected) : Except ArgumentProblem Arguments :=
  match c.record, c.criteria with
  | some record, some criteria =>
    if c.extras.isEmpty then
      .ok {
        record := .ofText record
        criteria := .ofText criteria
        parseDates := c.switches.contains .parseDates
        explain := c.switches.contains .explain
        json := c.switches.contains .json
        verbose := c.switches.contains .verbose }
    else .error (.unrecognized c.extras)
  | record, criteria =>
    .error (.required ((if record.isNone then [.record] else []) ++
      if criteria.isNone then [.criteria] else []))

/-- The arguments of a command line; nothing when it asks for help. -/
def parse (args : List Text) : Except ArgumentProblem (Option Arguments) := do
  match ← collect .none (← words args) with
  | none => return none
  | some c => return some (← finish c)

def program : String := "eligibility-check"

def usage : String :=
  "usage: " ++ program ++ " [-h] --record RECORD --criteria CRITERIA\n" ++
  "                         [--parse-dates] [--explain] [--json] [-v]\n"

def help : String :=
  usage ++
  "\nCheck whether a record satisfies a criteria document\n" ++
  "\noptions:\n" ++
  "  -h, --help           show this help message and exit\n" ++
  "  --record RECORD      Path to record JSON file\n" ++
  "  --criteria CRITERIA  Path to criteria JSON file\n" ++
  "  --parse-dates        Treat \x7b\"$date\": \"<ISO-8601>\"\x7d objects as dates\n" ++
  "  --explain            Show per-path outcomes\n" ++
  "  --json               Output JSON format\n" ++
  "  -v, --verbose        Enable debug logging\n"

def complaint (problem : ArgumentProblem) : Text :=
  usage ++ program ++ ": error: " ++ problem.message ++ "\n"

end Arguments
end Criteria
