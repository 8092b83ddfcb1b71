import Criteria.Fault
import Criteria.Value.Equality

namespace Criteria

def integerText (n : Int) : Except Fault String :=
  if Numeral.digitLimit < digitCount n.natAbs then .error (.breakdown .integerTooLong)
  else .ok (toString n)

def Number.text : Number → Except Fault String
  | .int n => integerText n
  | .float x => .ok x.text
  | .decimal d => .ok d.text

/-- Like the text, but a decimal stands in a constructor. -/
def Number.literal : Number → Except Fault String
  | .decimal d => .ok ("Decimal('" ++ d.text ++ "')")
  | n => n.text

mutual

/-- The value as it would be written in a program. -/
def Value.literal : Value → Except Fault String
  | .undefined => .ok "UNDEFINED"
  | .null => .ok "None"
  | .bool b => .ok (if b then "True" else "False")
  | .number n => n.literal
  | .text s => .ok (Text.quoted s)
  | .date d => .ok d.literal
  | .moment m => .ok m.literal
  | .bytes bs => .ok (Text.quotedBytes bs)
  | .token label => .ok ("<" ++ label ++ ">")
  | .list items => (Value.itemLiterals items).map fun ls => "[" ++ commaSeparated ls ++ "]"
  | .tuple items =>
    (Value.itemLiterals items).map fun ls =>
      match ls with
      | [l] => "(" ++ l ++ ",)"
      | _ => "(" ++ commaSeparated ls ++ ")"
  | .mapping entries =>
    (Value.entryLiterals entries).map fun ls => "\x7b" ++ commaSeparated ls ++ "\x7d"

def Value.itemLiterals : List Value → Except Fault (List String)
  | [] => .ok []
  | v :: vs => do
    let l ← v.literal
    let ls ← Value.itemLiterals vs
    return l :: ls

def Value.entryLiterals : List (Value × Value) → Except Fault (List String)
  | [] => .ok []
  | (k, v) :: es => do
    let kl ← k.literal
    let vl ← v.literal
    let ls ← Value.entryLiterals es
    return (kl ++ ": " ++ vl) :: ls

end

/-- The value as it is shown on its own: texts, decimals and dates without quotes and constructors. -/
def Value.display : Value → Except Fault Text
  | .text s => .ok s
  | .number n => n.text.map Text.ofString
  | .date d => .ok d.isoText
  | .moment m => .ok (.ofChars (m.isoChars ' '))
  | v => v.literal.map Text.ofString

end Criteria
