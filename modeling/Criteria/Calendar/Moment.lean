import Criteria.Calendar.Date

namespace Criteria

structure Clock where
  hour : Fin 24
  minute : Fin 60
  second : Fin 60
  micro : Fin 1000000
deriving DecidableEq

def Clock.midnight : Clock := ⟨0, 0, 0, 0⟩

def Clock.micros (c : Clock) : Int :=
  ((c.hour.val * 60 + c.minute.val) * 60 + c.second.val) * 1000000 + c.micro.val

def microsPerDay : Int := 86400000000

/-- How far local time is ahead of universal time, less than a day either way. -/
structure Offset where
  micros : Int
  bounded : -microsPerDay < micros ∧ micros < microsPerDay
deriving DecidableEq

structure Moment where
  date : Date
  clock : Clock
  offset : Option Offset
deriving DecidableEq

namespace Moment

def localMicros (m : Moment) : Int :=
  (m.date.ordinal - Date.epochOrdinal) * microsPerDay + m.clock.micros

/-- Microseconds since the start of 1970, universal time. A moment without an offset is taken to be
in universal time. -/
def instant (m : Moment) : Int :=
  m.localMicros - (m.offset.elim 0 Offset.micros)

/-- The millisecond that holds the instant, counted from the start of 1970, before it too. -/
def epochMillis (m : Moment) : Int := m.instant / 1000

/-- Moments are the same when both know their offset or neither does, and the instants agree. -/
def same (a b : Moment) : Bool :=
  a.offset.isSome == b.offset.isSome && a.instant == b.instant

end Moment

/-- A day begins at its midnight, universal time. -/
def Date.epochMillis (d : Date) : Int := (d.ordinal - Date.epochOrdinal) * 86400000

end Criteria
