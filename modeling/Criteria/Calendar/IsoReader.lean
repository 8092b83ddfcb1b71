import Criteria.Calendar.Moment
import Criteria.Text

namespace Criteria.IsoReader

inductive Problem where
  | malformed
  /-- An offset of a day or more, in microseconds. -/
  | offsetTooLarge (micros : Int)
  | yearOutOfRange (year : Nat)
  | monthOutOfRange
  | dayOutOfRange
  | hourOutOfRange
  | minuteOutOfRange
  | secondOutOfRange
deriving DecidableEq, Repr

def zero : UInt8 := 0x30
def hyphen : UInt8 := 0x2d
def plus : UInt8 := 0x2b
def colon : UInt8 := 0x3a
def point : UInt8 := 0x2e
def comma : UInt8 := 0x2c
def weekMark : UInt8 := 0x57

def isDigit (b : UInt8) : Bool := zero ≤ b && b ≤ 0x39

def takeDigits? (n : Nat) (bs : List UInt8) : Option (Nat × List UInt8) :=
  let ds := bs.take n
  if ds.length = n && ds.all isDigit then
    some (ds.foldl (fun acc b => 10 * acc + (b.toNat - 0x30)) 0, bs.drop n)
  else none

/-- How many bytes the date takes. After a week date it is guessed from the digits that follow. -/
def dateLength? (bs : List UInt8) : Option Nat :=
  let byte (i : Nat) : UInt8 := bs.getD i 0
  if bs.length = 7 then some 7
  else if byte 4 == hyphen then
    if byte 5 == weekMark then
      if byte 8 == hyphen then
        if bs.length = 9 then none
        else if isDigit (byte 10) then some 8
        else some 10
      else some 8
    else some 10
  else if byte 4 == weekMark then
    -- without hyphens the day of the week, the separator and the hour may all be digits
    let stop := 7 + ((bs.drop 7).takeWhile isDigit).length
    if stop < 9 then some stop else if stop % 2 = 0 then some 7 else some 8
  else some 8

/-- A separator that is there exactly when the date has hyphens. -/
def takeHyphen? (hyphenated : Bool) (bs : List UInt8) : Option (List UInt8) :=
  if hyphenated then
    match bs with
    | b :: rest => if b == hyphen then some rest else none
    | [] => none
  else some bs

/-- Year, month and day of a date of `length` bytes; nothing says yet that there is such a day. -/
def dateParts? (length : Nat) (bs : List UInt8) : Option (Nat × Nat × Nat) := do
  let (year, rest) ← takeDigits? 4 bs
  let hyphenated := rest.headD 0 == hyphen
  let rest := if hyphenated then rest.drop 1 else rest
  if rest.headD 0 == weekMark then
    let (week, rest) ← takeDigits? 2 (rest.drop 1)
    let ordinal ←
      if bs.length - rest.length < length then do
        let rest ← takeHyphen? hyphenated rest
        let (day, _) ← takeDigits? 1 rest
        weekDay? year week day
      else weekDay? year week 1
    return dateParts ordinal
  else
    let (month, rest) ← takeDigits? 2 rest
    let rest ← takeHyphen? hyphenated rest
    let (day, _) ← takeDigits? 2 rest
    return (year, month, day)

/-- The separator before the time is one character, of up to four bytes. -/
def dropSeparator (bs : List UInt8) : List UInt8 :=
  match bs with
  | [] => []
  | b :: _ =>
    bs.drop (if b < 0x80 then 1 else if b &&& 0xf0 == 0xe0 then 3 else if b &&& 0xf0 == 0xf0 then 4 else 2)

/-- What stands behind the two-digit fields of a time: its end, perhaps after one byte too many, or
a fraction. -/
inductive ClockTail where
  | stop (leftover : Bool)
  | fraction (digits : List UInt8)

/-- Up to `n` more fields. The first byte between two fields decides whether colons stand there. -/
def clockFields? : Nat → Option Bool → List UInt8 → Option (List Nat × ClockTail)
  | 0, _, bs => some ([], .fraction bs)
  | n + 1, colons, bs =>
    match takeDigits? 2 bs with
    | none => none
    | some (v, rest) =>
      match rest with
      | [] => some ([v], .stop false)
      | [c] => some ([v], .stop (c != 0))
      | c :: more =>
        let colons := colons.getD (c == colon)
        if colons && c == colon then
          (clockFields? n (some colons) more).map fun r => (v :: r.1, r.2)
        else if c == point || c == comma then some ([v], .fraction more)
        else if colons then none
        else (clockFields? n (some colons) rest).map fun r => (v :: r.1, r.2)

/-- The microseconds of a fraction: six digits count, more are skipped. -/
def fractionMicros? (bs : List UInt8) : Option (Nat × Bool) := do
  let counted := min 6 bs.length
  let (v, rest) ← takeDigits? counted bs
  return (v * Nat.pow 10 (6 - counted), (rest.dropWhile isDigit).headD 0 != 0)

structure RawClock where
  hour : Nat
  minute : Nat
  second : Nat
  micro : Nat
  leftover : Bool

def rawClock? (bs : List UInt8) : Option RawClock := do
  let (fields, tail) ← clockFields? 3 none bs
  let (micro, leftover) ←
    match tail with
    | .stop leftover => some (0, leftover)
    | .fraction digits => fractionMicros? digits
  return ⟨fields.getD 0 0, fields.getD 1 0, fields.getD 2 0, micro, leftover⟩

/-- A time and, in microseconds, its offset if it has one. What is left over behind the time is let
pass in front of an offset only. An offset of no whole seconds is universal time. -/
def timeAndOffset? (bs : List UInt8) : Option (RawClock × Option Int) := do
  let isSign (b : UInt8) : Bool := b == plus || b == hyphen
  let clock ← rawClock? (bs.takeWhile (!isSign ·))
  match bs.dropWhile (!isSign ·) with
  | [] => if clock.leftover then none else return (clock, none)
  | s :: rest =>
    let o ← rawClock? rest
    if o.leftover then none
    else
      let seconds : Int := (o.hour * 60 + o.minute) * 60 + o.second
      -- the microseconds count only beside whole seconds
      let micros := if seconds = 0 then 0 else seconds * 1000000 + o.micro
      return (clock, some (if s == hyphen then -micros else micros))

def checkedDate (year month day : Nat) : Except Problem Date :=
  if h : ValidDate year month day then .ok ⟨year, month, day, h⟩
  else if year < 1 || 9999 < year then .error (.yearOutOfRange year)
  else if month < 1 || 12 < month then .error .monthOutOfRange
  else .error .dayOutOfRange

def checkedClock (c : RawClock) : Except Problem Clock :=
  if hh : c.hour < 24 then
    if hm : c.minute < 60 then
      if hs : c.second < 60 then
        .ok ⟨⟨c.hour, hh⟩, ⟨c.minute, hm⟩, ⟨c.second, hs⟩,
          ⟨c.micro % 1000000, Nat.mod_lt c.micro (by decide)⟩⟩
      else .error .secondOutOfRange
    else .error .minuteOutOfRange
  else .error .hourOutOfRange

def checkedOffset : Option Int → Except Problem (Option Offset)
  | none => .ok none
  | some micros =>
    if h : -microsPerDay < micros ∧ micros < microsPerDay then .ok (some ⟨micros, h⟩)
    else .error (.offsetTooLarge micros)

def parts? (bs : List UInt8) : Option ((Nat × Nat × Nat) × RawClock × Option Int) := do
  if bs.length < 7 then none
  let length ← dateLength? bs
  let date ← dateParts? length bs
  match bs.drop length with
  | [] => return (date, ⟨0, 0, 0, 0, false⟩, none)
  | rest => return (date, ← timeAndOffset? (dropSeparator rest))

/-- The bytes of a text. A surrogate passes where the separator may stand, any other makes the text no
moment. -/
def bytes? (text : Text) : Option (List UInt8) :=
  let passed : Text :=
    -- these are the places behind a date of each form
    match [7, 8, 10].find? fun i => (text[i]?).any CodePoint.isSurrogate with
    | some i => text.set i (.char 'T')
    | none => text
  passed.chars?.map fun cs => (String.ofList cs).toUTF8.toList

/-- The moment a text denotes. The offset is checked first, then the date, then the time. -/
def moment (text : Text) : Except Problem Moment :=
  match (bytes? text).bind parts? with
  | none => .error .malformed
  | some ((year, month, day), clock, offset) => do
    let offset ← checkedOffset offset
    let date ← checkedDate year month day
    let clock ← checkedClock clock
    return ⟨date, clock, offset⟩

/-- The text with every `Z` written as the offset it stands for. -/
def expandZulu (text : Text) : Text :=
  text.flatMap fun p => if p = .char 'Z' then "+00:00" else [p]

def date? (text : Text) : Option Date :=
  match (bytes? text).bind (dateParts? 10) with
  | some (year, month, day) => (checkedDate year month day).toOption
  | none => none

end Criteria.IsoReader
