import Criteria.Number.Scaled

namespace Criteria

inductive Decimal where
  | finite (x : Scaled)
  | infinity (negative : Bool)
  /-- An undefined result. A signaling one may not even be tested for equality. -/
  | nan (negative signaling : Bool) (payload : Nat)
deriving DecidableEq, Repr

namespace Decimal

def maxAdjusted : Int := 999999999999999999

def minExponent : Int := -1999999999999999997

def inRange (x : Scaled) : Bool := x.adjusted ≤ maxAdjusted && minExponent ≤ x.exponent

def signText (negative : Bool) : List Char := if negative then ['-'] else []

def exponentText (e : Int) : List Char :=
  'E' :: (if e < 0 then '-' else '+') :: Nat.toDigits 10 e.natAbs

/-- Positional while the exponent is not positive and at most five zeros follow the point; scientific
otherwise. -/
def finiteText (x : Scaled) : List Char :=
  let ds := Nat.toDigits 10 x.coefficient
  -- how many digits stand in front of the point
  let left : Int := x.exponent + ds.length
  signText x.negative ++
    if x.exponent ≤ 0 && -6 < left then
      if left ≤ 0 then '0' :: '.' :: List.replicate (-left).toNat '0' ++ ds
      else if x.exponent = 0 then ds
      else ds.take left.toNat ++ '.' :: ds.drop left.toNat
    else
      let mantissa := if ds.length = 1 then ds else ds.take 1 ++ '.' :: ds.drop 1
      mantissa ++ if left = 1 then [] else exponentText (left - 1)

def text : Decimal → String
  | .finite x => String.ofList (finiteText x)
  | .infinity negative => String.ofList (signText negative) ++ "Infinity"
  | .nan negative signaling payload =>
    String.ofList (signText negative) ++ (if signaling then "sNaN" else "NaN") ++
      if payload = 0 then "" else Nat.repr payload

end Decimal
end Criteria
