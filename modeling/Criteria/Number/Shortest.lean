import Criteria.Number.Binary64

namespace Criteria.Binary64

/-- The end below of the reals that round to a double, in quarters of its last place. -/
def lowQuarters (m : Nat) (e : Int) : Nat :=
  if m = Nat.pow 2 52 ∧ -1074 < e then 4 * m - 1 else 4 * m - 2

/-- Whether a positive decimal rounds to the double `m · 2 ^ e`; the ends do when `m` is even. -/
def roundsTo (m : Nat) (e : Int) (x : Scaled) : Bool :=
  let low := (dyadic false (lowQuarters m e) (e - 2)).compare x
  let high := x.compare (dyadic false (4 * m + 2) (e - 2))
  if m % 2 = 0 then low != .gt && high != .gt else low == .lt && high == .lt

/-- The decimal with its last digit at `place` that rounds to the double and lies nearest to it; of two
the one with an even coefficient. Only the neighbours of the value can do. -/
def nearestAt? (m : Nat) (e : Int) (place : Int) : Option Scaled :=
  let v := dyadic false m e
  let unit := Nat.pow 10 (place - v.exponent).toNat
  let scaled := v.coefficient * Nat.pow 10 (v.exponent - place).toNat
  -- the value cut off at the place, and one unit more
  let below : Scaled := ⟨false, scaled / unit, place⟩
  let above : Scaled := ⟨false, scaled / unit + 1, place⟩
  let twice := 2 * (scaled % unit)
  match roundsTo m e below, roundsTo m e above with
  | false, false => none
  | true, false => some below
  | false, true => some above
  | true, true =>
    some (if twice < unit then below
      else if unit < twice then above
      else if below.coefficient % 2 = 0 then below else above)

/-- The fewest digits, at most seventeen, that read back as the double `m · 2 ^ e`. -/
def shortest (m : Nat) (e : Int) : Scaled :=
  let v := dyadic false m e
  ((List.range 17).findSome? fun i : Nat => nearestAt? m e (v.adjusted - i)).getD v

def significantDigits (n : Nat) : List Char :=
  let ds := ((Nat.toDigits 10 n).reverse.dropWhile (· == '0')).reverse
  if ds.isEmpty then ['0'] else ds

/-- How doubles are laid out: positional from `10 ^ positionalFrom` up to below `10 ^ positionalBelow`,
scientific elsewhere; the names of what is not finite. -/
structure Layout where
  positionalFrom : Int
  positionalBelow : Int
  exponentWidth : Nat
  infinity : String
  nan : String

def positional (ds : List Char) (leading : Int) : List Char :=
  if leading < 0 then '0' :: '.' :: List.replicate (-leading - 1).toNat '0' ++ ds
  else
    let whole := (leading + 1).toNat
    ds.take whole ++ List.replicate (whole - ds.length) '0' ++
      '.' :: if ds.length ≤ whole then ['0'] else ds.drop whole

def scientific (layout : Layout) (ds : List Char) (leading : Int) : List Char :=
  let es := Nat.toDigits 10 leading.natAbs
  (if ds.length = 1 then ds else ds.take 1 ++ '.' :: ds.drop 1) ++
    'e' :: (if leading < 0 then '-' else '+') ::
      List.replicate (layout.exponentWidth - es.length) '0' ++ es

def signed (negative : Bool) (s : String) : String := if negative then "-" ++ s else s

def format (layout : Layout) : Binary64 → String
  | .nan => layout.nan
  | .infinity negative => signed negative layout.infinity
  | .finite negative m e _ =>
    signed negative <| String.ofList <|
      if m = 0 then positional ['0'] 0
      else
        let x := shortest m e
        let ds := significantDigits x.coefficient
        if layout.positionalFrom ≤ x.adjusted && x.adjusted < layout.positionalBelow then
          positional ds x.adjusted
        else scientific layout ds x.adjusted

/-- Doubles stand in texts with up to sixteen digits before the point and three zeros behind it. -/
def textLayout : Layout := ⟨-4, 16, 2, "inf", "nan"⟩

def text (x : Binary64) : String := x.format textLayout

/-- The value that the text shows, which may differ from the exact one. -/
def shown? : Binary64 → Option Extended
  | .finite negative m e _ =>
    some (.finite (if m = 0 then ⟨negative, 0, 0⟩ else { shortest m e with negative }))
  | .infinity negative => some (.infinity negative)
  | .nan => none

end Criteria.Binary64
