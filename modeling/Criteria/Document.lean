import Criteria.FileTree
import Criteria.Fingerprint
import Criteria.Json.Reader
import Criteria.Shape

namespace Criteria

def unifyLineEnds : List Char → List Char
  | [] => []
  | '\r' :: '\n' :: cs => '\n' :: unifyLineEnds cs
  | c :: cs => (if c = '\r' then '\n' else c) :: unifyLineEnds cs

namespace Document

/-- A mapping whose only key is the date key is a date wrapper and becomes its moment. -/
def unwrapDate (entries : List (Value × Value)) : Except Fault Value :=
  match entries with
  | [(.text key, v)] =>
    if key = dateKey then
      match v with
      | .text s =>
        match IsoReader.moment (IsoReader.expandZulu s) with
        | .ok m => .ok (.moment m)
        | .error problem => .error (.refusal (.badDate s problem))
      | v => v.literal >>= fun l => .error (.refusal (.dateNotText l))
    else .ok (.mapping entries)
  | entries => .ok (.mapping entries)

def closing (parseDates : Bool) (entries : List (Value × Value)) : Except Fault Value :=
  if parseDates then unwrapDate entries else .ok (.mapping entries)

def parse (role : Role) (path : Text) (parseDates : Bool) (cs : List Char) : Except Fault Value :=
  match Json.read (closing parseDates) cs with
  | .ok v => .ok v
  | .error (.malformed problem position) =>
    .error (.refusal (.notJson role path (problem.locate cs position)))
  | .error (.numeralTooLong digits) => .error (.breakdown (.numeralTooLong digits))
  | .error (.rejected fault) => .error fault

def decode (role : Role) (path : Text) (parseDates : Bool) (bytes : List UInt8) :
    Except Fault Value :=
  match Text.decodeUtf8 bytes with
  | .error fault => .error (.breakdown (.notUtf8 fault))
  | .ok cs => do
    let v ← parse role path parseDates (unifyLineEnds cs)
    if v.isMapping then return v
    else throw (.refusal (.documentNotMapping role path v.typeName))

def checkShape (path : Text) (criteria : Value) : Except Fault Value := do
  match ← Shape.check criteria with
  | none => return criteria
  | some problem => throw (.refusal (.badShape path problem.message))

def load (files : Files) (role : Role) (path : FilePath) (parseDates : Bool) : Except Fault Value :=
  match files path with
  | .missing => .error (.breakdown (.missingFile role path.text))
  | .directory => .error (.breakdown (.isDirectory path.text))
  | .file content => do
    -- criteria are read like records, and looked through only then
    let v ← decode role path.text parseDates content
    match role with
    | .record => return v
    | .criteria => checkShape path.text v

end Document
end Criteria
