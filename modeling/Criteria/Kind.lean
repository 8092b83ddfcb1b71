namespace Criteria

inductive Kind where
  | undefined
  | null
  | bool
  | number
  | string
  | date
  | sequence
  | mapping
  | other
deriving DecidableEq, Repr

namespace Kind

def all : List Kind :=
  [undefined, null, bool, number, string, date, sequence, mapping, other]

def name : Kind → String
  | undefined => "undefined"
  | null => "null"
  | bool => "bool"
  | number => "number"
  | string => "string"
  | date => "date"
  | sequence => "sequence"
  | mapping => "mapping"
  | other => "other"

def isAbsent (k : Kind) : Bool := k == undefined || k == null

end Kind
end Criteria
