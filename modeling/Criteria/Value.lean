import Criteria.Calendar.Moment
import Criteria.Kind
import Criteria.Number
import Criteria.Text

namespace Criteria

inductive Value where
  /-- Stands for what a path does not lead to. -/
  | undefined
  | null
  | bool (b : Bool)
  | number (n : Number)
  | text (s : Text)
  | date (d : Date)
  | moment (m : Moment)
  | bytes (bs : List UInt8)
  /-- A value of which only the identity is known. -/
  | token (label : String)
  | list (items : List Value)
  | tuple (items : List Value)
  | mapping (entries : List (Value × Value))

namespace Value

def int (n : Int) : Value := .number (.int n)

def kind : Value → Kind
  | undefined => .undefined
  | null => .null
  | bool _ => .bool
  | number _ => .number
  | text _ => .string
  | date _ => .date
  | moment _ => .date
  | bytes _ => .other
  | token _ => .other
  | list _ => .sequence
  | tuple _ => .sequence
  | mapping _ => .mapping

def items? : Value → Option (List Value)
  | list items => some items
  | tuple items => some items
  | _ => none

def text? : Value → Option Text
  | text s => some s
  | _ => none

def isMapping (v : Value) : Bool := v.kind == .mapping

def isSequence (v : Value) : Bool := v.kind == .sequence

def isObject (v : Value) : Bool := v.isMapping || v.isSequence

/-- The number a number or a truth value counts as among composite values. -/
def number? : Value → Option Number
  | number n => some n
  | bool b => some (.int (if b then 1 else 0))
  | _ => none

def epochMillis? : Value → Option Int
  | date d => some d.epochMillis
  | moment m => some m.epochMillis
  | _ => none

def typeName : Value → String
  | undefined => "_Undefined"
  | null => "NoneType"
  | bool _ => "bool"
  | number (.int _) => "int"
  | number (.float _) => "float"
  | number (.decimal _) => "Decimal"
  | text _ => "str"
  | date _ => "date"
  | moment _ => "datetime"
  | bytes _ => "bytes"
  | token _ => "object"
  | list _ => "list"
  | tuple _ => "tuple"
  | mapping _ => "dict"

def qualifiedTypeName : Value → String
  | number (.decimal _) => "decimal.Decimal"
  | date _ => "datetime.date"
  | moment _ => "datetime.datetime"
  | v => v.typeName

end Value

mutual

/-- The elements that are no sequences, reached through sequences within sequences. -/
def Value.leaves : Value → List Value
  | .list items => Value.allLeaves items
  | .tuple items => Value.allLeaves items
  | v => [v]

def Value.allLeaves : List Value → List Value
  | [] => []
  | v :: vs => v.leaves ++ Value.allLeaves vs

end

mutual

/-- How deep a value is nested: nothing for a primitive, one more than its members otherwise. -/
def Value.height : Value → Nat
  | .list items => Value.itemsHeight items + 1
  | .tuple items => Value.itemsHeight items + 1
  | .mapping entries => Value.entriesHeight entries + 1
  | _ => 0

def Value.itemsHeight : List Value → Nat
  | [] => 0
  | v :: vs => max v.height (Value.itemsHeight vs)

def Value.entriesHeight : List (Value × Value) → Nat
  | [] => 0
  | (_, v) :: es => max v.height (Value.entriesHeight es)

end

end Criteria
