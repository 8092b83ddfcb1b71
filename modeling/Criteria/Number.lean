import Criteria.Number.Decimal
import Criteria.Number.Shortest

namespace Criteria

inductive Number where
  | int (n : Int)
  | float (x : Binary64)
  | decimal (d : Decimal)
deriving DecidableEq

namespace Number

def extended? : Number → Option Extended
  | .int n => some (.finite (.ofInt n))
  | .float x => x.extended?
  | .decimal (.finite x) => some (.finite x)
  | .decimal (.infinity negative) => some (.infinity negative)
  | .decimal (.nan ..) => none

def compare? (a b : Number) : Option Ordering :=
  match a.extended?, b.extended? with
  | some x, some y => some (x.compare y)
  | _, _ => none

def isDecimal : Number → Bool
  | .decimal _ => true
  | _ => false

/-- An undefined decimal that no comparison accepts. -/
def isSignaling : Number → Bool
  | .decimal (.nan _ signaling _) => signaling
  | _ => false

def equalityInvalid (a b : Number) : Bool := a.isSignaling || b.isSignaling

/-- Whether asking for the order of two numbers is one: an undefined value is met, and decimal
arithmetic has to answer. -/
def orderInvalid (a b : Number) : Bool :=
  (a.extended?.isNone || b.extended?.isNone) && (a.isDecimal || b.isDecimal)

def sameValue (a b : Number) : Bool := a.compare? b == some .eq

end Number
end Criteria
