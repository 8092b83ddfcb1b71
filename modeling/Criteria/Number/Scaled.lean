namespace Criteria

def digitCount (n : Nat) : Nat := (Nat.toDigits 10 n).length

theorem digitCount_pos (n : Nat) : 0 < digitCount n := Nat.length_toDigits_pos

/-- The decimal `± coefficient · 10 ^ exponent`. Zeros at the coefficient's end are part of it. -/
structure Scaled where
  negative : Bool
  coefficient : Nat
  exponent : Int
deriving DecidableEq, Repr

namespace Scaled

def ofInt (n : Int) : Scaled := ⟨n < 0, n.natAbs, 0⟩

/-- The power of ten at which the leading digit stands. -/
def adjusted (x : Scaled) : Int := x.exponent + digitCount x.coefficient - 1

def sign (x : Scaled) : Int :=
  if x.coefficient = 0 then 0 else if x.negative then -1 else 1

/-- Compares the absolute values of two decimals other than zero. Powers of ten are written out only
when the leading digits stand at the same place, so none exceeds the longer coefficient. -/
def compareMagnitude (x y : Scaled) : Ordering :=
  match compare x.adjusted y.adjusted with
  | .eq => compare (x.coefficient * Nat.pow 10 (x.exponent - y.exponent).toNat)
      (y.coefficient * Nat.pow 10 (y.exponent - x.exponent).toNat)
  | o => o

protected def compare (x y : Scaled) : Ordering :=
  match compare x.sign y.sign with
  | .eq =>
    if x.sign = 0 then .eq
    else if x.negative then compareMagnitude y x
    else compareMagnitude x y
  | o => o

end Scaled

inductive Extended where
  | finite (x : Scaled)
  | infinity (negative : Bool)
deriving DecidableEq, Repr

/-- Where a value lies: below all decimals, among them, or above them. -/
def Extended.region : Extended → Int
  | .finite _ => 0
  | .infinity negative => if negative then -1 else 1

protected def Extended.compare : Extended → Extended → Ordering
  | .finite x, .finite y => x.compare y
  | x, y => compare x.region y.region

end Criteria
