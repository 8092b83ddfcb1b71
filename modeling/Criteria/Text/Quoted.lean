import Criteria.Text
import Criteria.Text.Printable

namespace Criteria.Text

def hexDigits (width n : Nat) : List Char :=
  let ds := Nat.toDigits 16 n
  List.replicate (width - ds.length) '0' ++ ds

/-- A character by number, in the shortest of the three escapes that holds it. -/
def numericEscape (n : Nat) : List Char :=
  if n < 0x100 then '\\' :: 'x' :: hexDigits 2 n
  else if n < 0x10000 then '\\' :: 'u' :: hexDigits 4 n
  else '\\' :: 'U' :: hexDigits 8 n

def commonEscape? (quote c : Char) : Option (List Char) :=
  if c == quote || c == '\\' then some ['\\', c]
  else if c == '\n' then some ['\\', 'n']
  else if c == '\r' then some ['\\', 'r']
  else if c == '\t' then some ['\\', 't']
  else none

def singleQuote : Char := '\x27'

def doubleQuote : Char := '\x22'

/-- The quote that needs fewer escapes; the single one when both would do. -/
def quoteFor (s : Text) : Char :=
  if s.contains (.char singleQuote) && !s.contains (.char doubleQuote) then doubleQuote else singleQuote

def quotedChar (quote c : Char) : List Char :=
  match commonEscape? quote c with
  | some e => e
  | none => if isPrintable c then [c] else numericEscape c.toNat

def quotedPoint (quote : Char) : CodePoint → List Char
  | .char c => quotedChar quote c
  | .surrogate u => numericEscape (CodePoint.surrogate u).toNat

def quoted (s : Text) : String :=
  let q := quoteFor s
  String.ofList (q :: s.flatMap (quotedPoint q) ++ [q])

def quotedByte (quote : Char) (b : UInt8) : List Char :=
  let c := Char.ofNat b.toNat
  match commonEscape? quote c with
  | some e => e
  | none => if 0x20 ≤ b && b < 0x7f then [c] else numericEscape b.toNat

/-- A byte string: `b` before a quoted text of its bytes, those outside ASCII by number. -/
def quotedBytes (bs : List UInt8) : String :=
  let q := quoteFor (bs.map fun b => .char (Char.ofNat b.toNat))
  String.ofList ('b' :: q :: bs.flatMap (quotedByte q) ++ [q])

end Criteria.Text
