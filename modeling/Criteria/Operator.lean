import Criteria.Value

namespace Criteria

inductive Relation where
  | gt
  | lt
  | gte
  | lte
deriving DecidableEq, Repr

def Relation.holds : Relation → Ordering → Bool
  | gt, o => o == .gt
  | lt, o => o == .lt
  | gte, o => o != .lt
  | lte, o => o != .gt

inductive Junction where
  | all
  | any
deriving DecidableEq, Repr

def Junction.name : Junction → String
  | all => "and"
  | any => "or"

inductive Operator where
  | relation (r : Relation)
  | membership
  | junction (j : Junction)
deriving DecidableEq, Repr

namespace Operator

def name : Operator → String
  | relation .gt => "gt"
  | relation .lt => "lt"
  | relation .gte => "gte"
  | relation .lte => "lte"
  | membership => "in"
  | junction j => j.name

def all : List Operator :=
  [relation .gt, relation .lt, relation .gte, relation .lte, membership, junction .all,
    junction .any]

def named? (s : Text) : Option Operator := all.find? fun op => op.name == s

def ofKey? : Value → Option Operator
  | .text s => named? s
  | _ => none

@[simp] theorem named?_name (op : Operator) : named? op.name = some op := by
  cases op with
  | relation r => cases r <;> decide
  | membership => decide
  | junction j => cases j <;> decide

end Operator
end Criteria
