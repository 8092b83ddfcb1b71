import Criteria.Value.Text

namespace Criteria

/-- A refusal with its fields spelled out. `detail` is the field that only its category has. -/
structure Report where
  category : Category
  message : Text
  code : Value
  context : Value
  detail : Value

def Category.detailName? : Category → Option String
  | .unsupportedOperation => some "operator"
  | .depth => some "max_depth"
  | .configuration => some "setting"
  | _ => none

/-- What the field holds if nothing is given. -/
def Category.defaultDetail : Category → Value
  | .depth => .int 0
  | _ => .null

namespace Report

def fields (r : Report) : List (String × Value) :=
  [("error_code", r.code), ("context", r.context)] ++
    r.category.detailName?.toList.map fun name => (name, r.detail)

def entries (r : Report) : List (String × Value) :=
  ("error_type", .text r.category.name) :: ("message", .text r.message) :: r.fields

def display (r : Report) : Except Fault Text :=
  r.code.display.map fun code => "[" ++ code ++ "] " ++ r.message

def literal (r : Report) : Except Fault String := do
  let fields ← (("message", Value.text r.message) :: r.fields).mapM fun (name, v) =>
    v.literal.map fun l => name ++ "=" ++ l
  return r.category.name ++ "(" ++ commaSeparated fields ++ ")"

/-- Reports are equal when they are of one category and agree in every field. -/
def equal? (a b : Report) : Option Bool :=
  if a.category != b.category || a.message != b.message then some false
  else Value.itemsEqual? (a.fields.map (·.2)) (b.fields.map (·.2))

end Report

def Refusal.report (r : Refusal) : Report where
  category := r.category
  message := r.message
  code := .text r.category.code
  context := .mapping (r.context.map fun (k, v) => (.text k, .text v))
  detail :=
    match r with
    | .unknownOperator name => .text name
    | .conditionTooDeep limit => .int limit
    | .segmentTooDeep _ limit => .int limit
    | .badDepth _ => .text depthVariable
    | _ => .null

end Criteria
