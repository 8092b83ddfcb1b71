import Criteria.Text

namespace Criteria.Text

inductive Utf8Problem where
  | invalidStart
  | invalidContinuation
  | unexpectedEnd
deriving DecidableEq, Repr

/-- The bytes from `start` up to `stop` are no part of a text; the first of them is `lead`. -/
structure Utf8Fault where
  problem : Utf8Problem
  lead : UInt8
  start : Nat
  stop : Nat
deriving DecidableEq, Repr

/-- A character of which `owed` more bytes are to come, the next one between `low` and `high`. -/
structure PartialChar where
  lead : UInt8
  start : Nat
  value : Nat
  owed : Nat
  low : UInt8
  high : UInt8

/-- What a byte above ASCII opens. The ranges rule out overlong forms, surrogates and code points
past the last one. -/
def PartialChar.open? (start : Nat) (b : UInt8) : Option PartialChar :=
  let opened (value owed : Nat) (low high : UInt8) : PartialChar := ⟨b, start, value, owed, low, high⟩
  if b < 0xc2 then none
  else if b < 0xe0 then some (opened (b.toNat - 0xc0) 1 0x80 0xbf)
  else if b == 0xe0 then some (opened 0 2 0xa0 0xbf)
  else if b == 0xed then some (opened 0xd 2 0x80 0x9f)
  else if b < 0xf0 then some (opened (b.toNat - 0xe0) 2 0x80 0xbf)
  else if b == 0xf0 then some (opened 0 3 0x90 0xbf)
  else if b < 0xf4 then some (opened (b.toNat - 0xf0) 3 0x80 0xbf)
  else if b == 0xf4 then some (opened 4 3 0x80 0x8f)
  else none

def decodeUtf8From (pos : Nat) (pending : Option PartialChar) :
    List UInt8 → Except Utf8Fault (List Char)
  | [] =>
    match pending with
    | none => .ok []
    | some p => .error ⟨.unexpectedEnd, p.lead, p.start, pos⟩
  | b :: rest =>
    match pending with
    | none =>
      if b < 0x80 then (Char.ofNat b.toNat :: ·) <$> decodeUtf8From (pos + 1) none rest
      else
        match PartialChar.open? pos b with
        | none => .error ⟨.invalidStart, b, pos, pos + 1⟩
        | some p => decodeUtf8From (pos + 1) (some p) rest
    | some p =>
      -- only the byte behind the lead is held to a narrower range
      if p.low ≤ b && b ≤ p.high then
        let value := p.value * 0x40 + (b.toNat - 0x80)
        if p.owed ≤ 1 then (Char.ofNat value :: ·) <$> decodeUtf8From (pos + 1) none rest
        else decodeUtf8From (pos + 1) (some ⟨p.lead, p.start, value, p.owed - 1, 0x80, 0xbf⟩) rest
      else .error ⟨.invalidContinuation, p.lead, p.start, pos⟩

def decodeUtf8 (bytes : List UInt8) : Except Utf8Fault (List Char) :=
  decodeUtf8From 0 none bytes

/-- Surrogates side by side, the first of them at `start`, which no encoding of characters has bytes for. -/
structure SurrogateRun where
  start : Nat
  points : Text
deriving DecidableEq, Repr

/-- The text for a strict encoder, which stops at the first run of surrogates. -/
def encodeUtf8 (s : Text) : Except SurrogateRun String :=
  match s.chars? with
  | some cs => .ok (String.ofList cs)
  | none =>
    let start := (s.takeWhile fun p => !p.isSurrogate).length
    .error ⟨start, (s.drop start).takeWhile CodePoint.isSurrogate⟩

end Criteria.Text
