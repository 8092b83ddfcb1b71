import Criteria.Number.Decimal
import Criteria.Text.Blank
import Criteria.Text.Digit
import Criteria.Text.Split

namespace Criteria.Numeral
open Text

/-- The most digits an integer is read or written with. -/
def digitLimit : Nat := 4300

def takeSign : List Char → Bool × List Char
  | '-' :: cs => (true, cs)
  | '+' :: cs => (false, cs)
  | cs => (false, cs)

/-- The text with ASCII digits for those of other scripts and without underscores. -/
def plain (cs : List Char) : List Char :=
  (cs.filter (· != '_')).map fun c =>
    match digitValue? c with
    | some d => Nat.digitChar d
    | none => c

def exponent? : List Char → Option Int
  | [] => some 0
  | c :: cs =>
    if c.toLower = 'e' then
      let (negative, ds) := takeSign cs
      if ds.isEmpty || !ds.all Char.isDigit then none
      else
        let n : Int := Nat.ofDigitChars 10 ds 0
        some (if negative then -n else n)
    else none

/-- Digits with a point among, before or behind them; then an exponent. -/
def finite? (negative : Bool) (cs : List Char) : Option Scaled :=
  let whole := cs.takeWhile Char.isDigit
  let rest := cs.dropWhile Char.isDigit
  let (fraction, rest) :=
    match rest with
    | '.' :: r => (r.takeWhile Char.isDigit, r.dropWhile Char.isDigit)
    | r => ([], r)
  let ds := whole ++ fraction
  if ds.isEmpty then none
  else (exponent? rest).map fun e => ⟨negative, Nat.ofDigitChars 10 ds 0, e - fraction.length⟩

def special? (negative : Bool) (cs : List Char) : Option Decimal :=
  let word := cs.map Char.toLower
  let nan? (signaling : Bool) (payload : List Char) : Option Decimal :=
    if payload.all Char.isDigit then
      some (.nan negative signaling (Nat.ofDigitChars 10 payload 0))
    else none
  -- the names are the same in either case, and digits may stand behind an undefined result
  match word with
  | ['i', 'n', 'f'] => some (.infinity negative)
  | ['i', 'n', 'f', 'i', 'n', 'i', 't', 'y'] => some (.infinity negative)
  | 'n' :: 'a' :: 'n' :: payload => nan? false payload
  | 's' :: 'n' :: 'a' :: 'n' :: payload => nan? true payload
  | _ => none

def decimal? (cs : List Char) : Option Decimal :=
  let (negative, body) := takeSign (plain (trim isBlank cs))
  match special? negative body with
  | some d => some d
  | none => ((finite? negative body).filter Decimal.inRange).map .finite

def integer? (cs : List Char) : Option Int :=
  let (negative, body) := takeSign (trim isWhiteSpace cs)
  let groups := splitOn '_' body
  if groups.any List.isEmpty || digitLimit < groups.flatten.length then none
  else (digitsValue? groups.flatten).map fun n => if negative then -n else n

end Criteria.Numeral
