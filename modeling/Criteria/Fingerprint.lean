import Criteria.Calendar.IsoText
import Criteria.Digest.Sha256
import Criteria.Json
import Criteria.Value.KeyOrder
import Criteria.Value.Text

namespace Criteria

def memberName : Value → Except Fault Text
  | .text s => .ok s
  | .number (.int n) => (integerText n).map Text.ofString
  | .number (.float x) => .ok (x.format Json.floatLayout)
  | .bool b => .ok (if b then "true" else "false")
  | .null => .ok "null"
  | key => .error (.breakdown (.keyNotWritable key.qualifiedTypeName))

def membersOf (entries : List (Value × Except Fault Json)) : Except Fault (List (Text × Json)) :=
  entries.mapM fun (key, value) => do
    let name ← memberName key
    return (name, ← value)

mutual

def Value.canonical : Value → Except Fault Json
  | .null => .ok .null
  | .bool b => .ok (.bool b)
  | .number (.int n) => (integerText n).map fun _ => .int n
  | .number (.float x) => .ok (.float x)
  | .number (.decimal d) => .ok (.string d.text)
  | .text s => .ok (.string s)
  | .date d => .ok (.object [(dateKey, .string d.isoText)])
  | .moment m => .ok (.object [(dateKey, .string m.isoText)])
  | .list items => (Value.canonicalItems items).map .array
  | .tuple items => (Value.canonicalItems items).map .array
  | .mapping entries =>
    (sortEntries (Value.canonicalEntries entries) >>= membersOf).map .object
  | v => .error (.breakdown (.valueNotWritable v.typeName))

def Value.canonicalItems : List Value → Except Fault (List Json)
  | [] => .ok []
  | v :: vs => do
    let j ← v.canonical
    let js ← Value.canonicalItems vs
    return j :: js

def Value.canonicalEntries : List (Value × Value) → List (Value × Except Fault Json)
  | [] => []
  | (key, v) :: es => (key, v.canonical) :: Value.canonicalEntries es

end

def Value.canonicalText (v : Value) : Except Fault String := v.canonical.map (Json.render Json.compact)

/-- The SHA-256 digest of a text in UTF-8, in hexadecimal. -/
def hexDigest (text : String) : String :=
  String.ofList <| (Sha256.digest text.toUTF8.toList).flatMap fun b => Text.hexDigits 2 b.toNat

def fingerprint (v : Value) : Except Fault String := v.canonicalText.map hexDigest

end Criteria
