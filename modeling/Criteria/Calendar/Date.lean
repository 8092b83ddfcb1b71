namespace Criteria

def isLeap (year : Nat) : Bool := year % 4 == 0 && (year % 100 != 0 || year % 400 == 0)

def daysInMonth (year month : Nat) : Nat :=
  if month = 2 then (if isLeap year then 29 else 28)
  else if month = 4 || month = 6 || month = 9 || month = 11 then 30
  else 31

def daysBeforeMonth (year month : Nat) : Nat :=
  (List.range (month - 1)).foldl (fun days i => days + daysInMonth year (i + 1)) 0

/-- The number of the last day before a year. -/
def daysBeforeYear (year : Int) : Int :=
  let y := year - 1
  365 * y + y / 4 - y / 100 + y / 400

def ValidDate (year month day : Nat) : Prop :=
  (1 ≤ year ∧ year ≤ 9999) ∧ (1 ≤ month ∧ month ≤ 12) ∧ 1 ≤ day ∧ day ≤ daysInMonth year month

instance (y m d : Nat) : Decidable (ValidDate y m d) :=
  inferInstanceAs (Decidable ((_ ∧ _) ∧ (_ ∧ _) ∧ _ ∧ _))

structure Date where
  year : Nat
  month : Nat
  day : Nat
  valid : ValidDate year month day
deriving DecidableEq

namespace Date

def ordinal (d : Date) : Int :=
  daysBeforeYear d.year + daysBeforeMonth d.year d.month + d.day

def epochOrdinal : Int := 719163

end Date

/-- The month and day that stand `n` days after the first of January. -/
def monthAndDay (year n : Nat) : Nat × Nat :=
  let month := ((List.range 12).filter fun i => daysBeforeMonth year (i + 1) ≤ n).length
  (month, n - daysBeforeMonth year month + 1)

/-- Year, month and day of a day number. Days before the first have no month. -/
def dateParts (ordinal : Int) : Nat × Nat × Nat :=
  if ordinal ≤ 0 then (1, 0, 0)
  else
    let n := (ordinal - 1).toNat
    let fourHundreds := n / 146097
    let n := n % 146097
    -- the last day of a cycle would otherwise begin a part of its own
    let hundreds := min 3 (n / 36524)
    let n := n - 36524 * hundreds
    let fours := n / 1461
    let n := n % 1461
    let ones := min 3 (n / 365)
    let year := 400 * fourHundreds + 100 * hundreds + 4 * fours + ones + 1
    (year, monthAndDay year (n - 365 * ones))

/-- The Monday on which the first week of a year starts, which is the week of the fourth of January. -/
def firstMonday (year : Int) : Int :=
  let fourth := daysBeforeYear year + 4
  fourth - (fourth - 1) % 7

/-- The number of a day given by year, week and day of the week, if the year has that week. -/
def weekDay? (year : Int) (week day : Nat) : Option Int :=
  let monday := firstMonday year + 7 * ((week : Int) - 1)
  if 1 ≤ week && monday < firstMonday (year + 1) && 1 ≤ day && day ≤ 7 then
    some (monday + (day : Int) - 1)
  else none

end Criteria
