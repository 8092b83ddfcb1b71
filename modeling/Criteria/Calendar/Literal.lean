import Criteria.Calendar.IsoReader

namespace Criteria

def commaSeparated (parts : List String) : String := String.intercalate ", " parts

/-- A duration in microseconds as whole days, which may be negative, and seconds and microseconds,
which are not. Parts that are zero are left out. -/
def durationLiteral (micros : Int) : String :=
  let days := micros / microsPerDay
  let seconds := micros % microsPerDay / 1000000
  let rest := micros % 1000000
  let part (name : String) (n : Int) : List String := if n = 0 then [] else [name ++ "=" ++ toString n]
  let parts := part "days" days ++ part "seconds" seconds ++ part "microseconds" rest
  "datetime.timedelta(" ++ (if parts.isEmpty then "0" else commaSeparated parts) ++ ")"

def Date.literal (d : Date) : String :=
  "datetime.date(" ++ commaSeparated [Nat.repr d.year, Nat.repr d.month, Nat.repr d.day] ++ ")"

def Offset.literal (o : Offset) : String :=
  if o.micros = 0 then "datetime.timezone.utc"
  else "datetime.timezone(" ++ durationLiteral o.micros ++ ")"

/-- Seconds are left out when they and the microseconds are zero, microseconds when they are. -/
def Moment.literal (m : Moment) : String :=
  let micro := m.clock.micro.val
  let second := m.clock.second.val
  let parts := [m.date.year, m.date.month, m.date.day, m.clock.hour.val, m.clock.minute.val] ++
    (if second = 0 && micro = 0 then [] else [second]) ++ (if micro = 0 then [] else [micro])
  "datetime.datetime(" ++ commaSeparated (parts.map Nat.repr ++
    m.offset.elim [] fun o => ["tzinfo=" ++ o.literal]) ++ ")"

/-- Why a text is no moment; `literal` is the text in quotes. -/
def IsoReader.Problem.message (literal : String) : IsoReader.Problem → String
  | .malformed => "Invalid isoformat string: " ++ literal
  | .offsetTooLarge micros =>
    "offset must be a timedelta strictly between -timedelta(hours=24) and timedelta(hours=24), not " ++
      durationLiteral micros ++ "."
  | .yearOutOfRange year => "year " ++ Nat.repr year ++ " is out of range"
  | .monthOutOfRange => "month must be in 1..12"
  | .dayOutOfRange => "day is out of range for month"
  | .hourOutOfRange => "hour must be in 0..23"
  | .minuteOutOfRange => "minute must be in 0..59"
  | .secondOutOfRange => "second must be in 0..59"

end Criteria
