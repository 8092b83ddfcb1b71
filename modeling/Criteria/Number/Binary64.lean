import Criteria.Number.Scaled

namespace Criteria

/-- What makes `significand · 2 ^ exponent` a double: 53 bits, all in use unless the exponent is the
least one. -/
def Fits (significand : Nat) (exponent : Int) : Prop :=
  significand < Nat.pow 2 53 ∧ (Nat.pow 2 52 ≤ significand ∨ exponent = -1074) ∧
    -1074 ≤ exponent ∧ exponent ≤ 971

instance (m : Nat) (e : Int) : Decidable (Fits m e) :=
  inferInstanceAs (Decidable (_ ∧ _ ∧ _ ∧ _))

inductive Binary64 where
  | finite (negative : Bool) (significand : Nat) (exponent : Int) (fits : Fits significand exponent)
  | infinity (negative : Bool)
  | nan
deriving DecidableEq

namespace Binary64

def zero (negative : Bool) : Binary64 := .finite negative 0 (-1074) (by decide)

def dyadic (negative : Bool) (n : Nat) (e : Int) : Scaled :=
  if 0 ≤ e then ⟨negative, n * Nat.pow 2 e.toNat, 0⟩
  else ⟨negative, n * Nat.pow 5 (-e).toNat, e⟩

def extended? : Binary64 → Option Extended
  | .finite negative m e _ => some (.finite (dyadic negative m e))
  | .infinity negative => some (.infinity negative)
  | .nan => none

/-- The integer nearest to a quotient, of two the even one. -/
def roundDiv (num den : Nat) : Nat :=
  let q := num / den
  let twice := 2 * (num % den)
  if twice < den then q else if den < twice then q + 1 else q + q % 2

def make (negative : Bool) (m : Nat) (e : Int) : Binary64 :=
  if h : Fits m e then .finite negative m e h else .infinity negative

/-- The double nearest to `num / den`, of two the one with an even significand. -/
def ofRatio (negative : Bool) (num den : Nat) : Binary64 :=
  if num = 0 then zero negative
  else
    -- the quotient of the logarithms misses the leading bit by one at most
    let near : Int := (num.log2 : Int) - den.log2 - 52
    let quotient := num * Nat.pow 2 (-near).toNat / (den * Nat.pow 2 near.toNat)
    let e := max (-1074) (if quotient < Nat.pow 2 52 then near - 1 else near)
    let m := roundDiv (num * Nat.pow 2 (-e).toNat) (den * Nat.pow 2 e.toNat)
    -- rounded up, the significand may have one bit too many
    if m = Nat.pow 2 53 then make negative (Nat.pow 2 52) (e + 1) else make negative m e

/-- The double nearest to a decimal. Beyond `10 ^ 400` either way no power of ten is written out. -/
def ofScaled (x : Scaled) : Binary64 :=
  if x.coefficient = 0 || x.adjusted < -400 then zero x.negative
  else if 400 < x.adjusted then .infinity x.negative
  else ofRatio x.negative (x.coefficient * Nat.pow 10 x.exponent.toNat) (Nat.pow 10 (-x.exponent).toNat)

end Binary64
end Criteria
