import Criteria.Calendar.IsoText
import Criteria.Json
import Criteria.Value.Text

namespace Criteria

/-- The text with `Z` for universal time. Other offsets are rounded to the second, of which only whole
minutes are written. -/
def Moment.zuluText (m : Moment) : String :=
  String.ofList <| m.date.isoChars ++ 'T' :: m.clock.isoChars ++
    match m.offset with
    | none => []
    | some o =>
      let seconds := (o.micros.natAbs + 500000) / 1000000
      if seconds = 0 then ['Z']
      else (if o.micros < 0 then '-' else '+') :: paddedDigits 2 (seconds / 3600) ++
        ':' :: paddedDigits 2 (seconds / 60 % 60)

def bytesText (bs : List UInt8) : Except Fault Text :=
  match Text.decodeUtf8 bs with
  | .ok cs => .ok (.ofChars cs)
  | .error fault => .error (.breakdown (.bytesNotText fault.lead fault.start))

mutual

def Value.plainKey : Value → Except Fault Text
  | .null => .ok "None"
  | .bool b => .ok (if b then "true" else "false")
  | .number n => n.text.map Text.ofString
  | .text s => .ok s
  | .date d => .ok d.isoText
  | .moment m => .ok m.zuluText
  | .bytes bs => bytesText bs
  | .tuple keys => (Value.plainKeys keys).map (Text.join ",")
  | key => .error (.breakdown (.valueNotWritable key.typeName))

def Value.plainKeys : List Value → Except Fault (List Text)
  | [] => .ok []
  | k :: ks => do
    let name ← k.plainKey
    let names ← Value.plainKeys ks
    return name :: names

end

/-- Of members with one name the first keeps its place and the last its value. -/
def insertMember (name : Text) (value : Json) : List (Text × Json) → List (Text × Json)
  | [] => [(name, value)]
  | m :: ms => if m.1 == name then (name, value) :: ms else m :: insertMember name value ms

/-- How many values may be nested in each other in what is dumped. -/
def dumpLimit : Nat := 255

mutual

/-- The plain tree of a value that stands inside `level` others. What JSON has no form for becomes text, and
numbers that are not finite become null. -/
def Value.plainAt (level : Nat) (v : Value) : Except Fault Json :=
  if dumpLimit ≤ level then .error (.breakdown .valueTooDeep)
  else
    match v with
    | .null => .ok .null
    | .bool b => .ok (.bool b)
    | .number (.int n) => .ok (.int n)
    | .number (.float x) =>
      match x with
      | .finite .. => .ok (.float x)
      | _ => .ok .null
    | .number (.decimal d) => .ok (.string d.text)
    | .text s => .ok (.string s)
    | .date d => .ok (.string d.isoText)
    | .moment m => .ok (.string m.zuluText)
    | .bytes bs => (bytesText bs).map .string
    | .list items => (Value.plainItems (level + 1) items).map .array
    | .tuple items => (Value.plainItems (level + 1) items).map .array
    | .mapping entries => (Value.plainEntries (level + 1) [] entries).map .object
    | v => .error (.breakdown (.valueNotWritable v.typeName))

def Value.plainItems (level : Nat) : List Value → Except Fault (List Json)
  | [] => .ok []
  | v :: vs => do
    let j ← v.plainAt level
    let js ← Value.plainItems level vs
    return j :: js

def Value.plainEntries (level : Nat) (members : List (Text × Json)) :
    List (Value × Value) → Except Fault (List (Text × Json))
  | [] => .ok members
  | (key, v) :: es => do
    let name ← key.plainKey
    let j ← v.plainAt level
    Value.plainEntries level (insertMember name j members) es

end

def Value.plain (v : Value) : Except Fault Json := v.plainAt 0

end Criteria
