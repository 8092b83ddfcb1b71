import Criteria.Calendar.Moment

namespace Criteria

def paddedDigits (width n : Nat) : List Char :=
  let ds := Nat.toDigits 10 n
  List.replicate (width - ds.length) '0' ++ ds

def Date.isoChars (d : Date) : List Char :=
  paddedDigits 4 d.year ++ '-' :: paddedDigits 2 d.month ++ '-' :: paddedDigits 2 d.day

def Date.isoText (d : Date) : String := String.ofList d.isoChars

/-- A point and six digits, or nothing when there are no microseconds. -/
def microChars (micro : Nat) : List Char :=
  if micro = 0 then [] else '.' :: paddedDigits 6 micro

def Clock.isoChars (c : Clock) : List Char :=
  paddedDigits 2 c.hour.val ++ ':' :: paddedDigits 2 c.minute.val ++
    ':' :: paddedDigits 2 c.second.val ++ microChars c.micro.val

/-- Hours and minutes with a sign; seconds and microseconds only where there are some. -/
def Offset.isoChars (o : Offset) : List Char :=
  let n := o.micros.natAbs
  let seconds := n / 1000000
  let micro := n % 1000000
  (if o.micros < 0 then '-' else '+') :: paddedDigits 2 (seconds / 3600) ++
    ':' :: paddedDigits 2 (seconds / 60 % 60) ++
    (if seconds % 60 = 0 && micro = 0 then [] else ':' :: paddedDigits 2 (seconds % 60)) ++
    microChars micro

namespace Moment

def isoChars (m : Moment) (separator : Char) : List Char :=
  m.date.isoChars ++ separator :: m.clock.isoChars ++ m.offset.elim [] Offset.isoChars

def isoText (m : Moment) : String := String.ofList (m.isoChars 'T')

end Moment
end Criteria
