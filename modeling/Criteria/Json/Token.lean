import Criteria.Number.Binary64
import Criteria.Text

namespace Criteria.Json

inductive Problem where
  | expectedValue
  | expectedName
  | expectedColon
  | expectedComma
  | extraData
  | unterminatedString
  | controlCharacter
  | badEscape
  | badUnicodeEscape
  | byteOrderMark
deriving DecidableEq, Repr

inductive Token where
  | openObject
  | closeObject
  | openArray
  | closeArray
  | colon
  | comma
  | null
  | bool (b : Bool)
  | string (s : Text)
  /-- A string that goes wrong at `position`. -/
  | badString (problem : Problem) (position : Nat)
  | int (negative : Bool) (digits : List Char)
  | float (x : Binary64)
  /-- No token starts here. -/
  | other

/-- After these nothing more is read. -/
def Token.isLast : Token → Bool
  | .badString .. => true
  | .other => true
  | _ => false

structure Lexeme where
  token : Token
  start : Nat

def isSpace (c : Char) : Bool := c == ' ' || c == '\t' || c == '\n' || c == '\r'

def hexValue? (c : Char) : Option Nat :=
  if '0' ≤ c && c ≤ '9' then some (c.toNat - 0x30)
  else if 'a' ≤ c && c ≤ 'f' then some (c.toNat - 0x57)
  else if 'A' ≤ c && c ≤ 'F' then some (c.toNat - 0x37)
  else none

def unitValue? (a b c d : Char) : Option Nat := do
  return ((← hexValue? a) * 0x1000 + (← hexValue? b) * 0x100 + (← hexValue? c) * 0x10 + (← hexValue? d))

def simpleEscape? (c : Char) : Option Char :=
  if c == '\x22' || c == '\\' || c == '/' then some c
  else if c == 'b' then some '\x08'
  else if c == 'f' then some '\x0c'
  else if c == 'n' then some '\n'
  else if c == 'r' then some '\r'
  else if c == 't' then some '\t'
  else none

/-- The code points up to the closing quote and the position behind it, surrogates as they are written. The
string opened at `start`, the list starts at `pos`. A unit needs four digits and something behind them. -/
def stringPoints (start pos : Nat) : List Char → Except (Problem × Nat) (Text × Nat)
  | [] => .error (.unterminatedString, start)
  | c :: rest =>
    if c == '\x22' then .ok ([], pos + 1)
    else if c == '\\' then
      match rest with
      | [] => .error (.unterminatedString, start)
      | e :: more =>
        if e == 'u' then
          match more with
          | x :: y :: z :: w :: tail =>
            match if tail.isEmpty then none else unitValue? x y z w with
            | none => .error (.badUnicodeEscape, pos + 1)
            | some n => (stringPoints start (pos + 6) tail).map fun r => (.ofUnit n :: r.1, r.2)
          | _ => .error (.badUnicodeEscape, pos + 1)
        else
          match simpleEscape? e with
          | none => .error (.badEscape, pos)
          | some c => (stringPoints start (pos + 2) more).map fun r => (.char c :: r.1, r.2)
    else if c.toNat < 0x20 then .error (.controlCharacter, pos)
    else (stringPoints start (pos + 1) rest).map fun r => (.char c :: r.1, r.2)

def pairChar? (u w : Fin 0x800) : Option Char :=
  if u.val < 0x400 && 0x400 ≤ w.val then some (Char.ofNat (0x10000 + u.val * 0x400 + (w.val - 0x400))) else none

/-- The text with a character for every pair of surrogates. -/
def joinPairs : Text → Text
  | .surrogate u :: .surrogate w :: s =>
    match pairChar? u w with
    | some c => .char c :: joinPairs s
    | none => .surrogate u :: joinPairs (.surrogate w :: s)
  | p :: s => p :: joinPairs s
  | [] => []

def scanString (start : Nat) (rest : List Char) : Token × Nat :=
  match stringPoints start (start + 1) rest with
  | .error (problem, position) => (.badString problem position, 0)
  | .ok (points, stop) => (.string (joinPairs points), stop - (start + 1))

/-- The digits before a fraction: a zero, or a run that starts with another digit. -/
def wholeDigits (cs : List Char) : List Char :=
  if cs.head? == some '0' then ['0'] else cs.takeWhile Char.isDigit

def fractionDigits : List Char → List Char
  | '.' :: cs => cs.takeWhile Char.isDigit
  | _ => []

def exponentPart? : List Char → Option (Nat × Int)
  | c :: cs =>
    if c == 'e' || c == 'E' then
      let signLength := if cs.head? == some '+' || cs.head? == some '-' then 1 else 0
      let ds := (cs.drop signLength).takeWhile Char.isDigit
      if ds.isEmpty then none
      else
        let n : Int := Nat.ofDigitChars 10 ds 0
        some (1 + signLength + ds.length, if cs.head? == some '-' then -n else n)
    else none
  | [] => none

/-- The number at the start of a text and its length. A point without digits behind it, or an exponent
without digits, is no part of it. -/
def scanNumber? (cs : List Char) : Option (Token × Nat) :=
  let negative := cs.head? == some '-'
  let body := if negative then cs.drop 1 else cs
  let signLength := if negative then 1 else 0
  let whole := wholeDigits body
  if whole.isEmpty then none
  else
    let rest := body.drop whole.length
    let fraction := fractionDigits rest
    let fractionLength := if fraction.isEmpty then 0 else fraction.length + 1
    let length := signLength + whole.length + fractionLength
    match exponentPart? (rest.drop fractionLength) with
    | some (n, e) =>
      some (.float (Binary64.ofScaled
        ⟨negative, Nat.ofDigitChars 10 (whole ++ fraction) 0, e - fraction.length⟩), length + n)
    | none =>
      if fraction.isEmpty then some (.int negative whole, length)
      else
        some (.float (Binary64.ofScaled
          ⟨negative, Nat.ofDigitChars 10 (whole ++ fraction) 0, -(fraction.length : Int)⟩), length)

def words : List (String × Token) :=
  [("null", .null), ("true", .bool true), ("false", .bool false), ("NaN", .float .nan),
    ("Infinity", .float (.infinity false)), ("-Infinity", .float (.infinity true))]

def scanWord? (cs : List Char) : Option (Token × Nat) :=
  (words.find? fun w => w.1.toList.isPrefixOf cs).map fun w => (w.2, w.1.length)

/-- The token that starts with `c`, and how many characters behind `c` it takes. -/
def scan (pos : Nat) (c : Char) (rest : List Char) : Token × Nat :=
  if c == '\x7b' then (.openObject, 0)
  else if c == '\x7d' then (.closeObject, 0)
  else if c == '[' then (.openArray, 0)
  else if c == ']' then (.closeArray, 0)
  else if c == ':' then (.colon, 0)
  else if c == ',' then (.comma, 0)
  else if c == '\x22' then scanString pos rest
  else
    match (scanWord? (c :: rest)).or (scanNumber? (c :: rest)) with
    | some (token, length) => (token, length - 1)
    | none => (.other, 0)

def lexemesFrom (pos : Nat) : List Char → List Lexeme
  | [] => []
  | c :: rest =>
    if isSpace c then lexemesFrom (pos + 1) rest
    else
      let (token, n) := scan pos c rest
      ⟨token, pos⟩ :: if token.isLast then [] else lexemesFrom (pos + 1 + n) (rest.drop n)
termination_by cs => cs.length
decreasing_by all_goals simp; try omega

end Criteria.Json
