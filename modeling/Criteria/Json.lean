import Criteria.Number.Shortest
import Criteria.Text.Quoted

namespace Criteria

inductive Json where
  | null
  | bool (b : Bool)
  | int (n : Int)
  | float (x : Binary64)
  | string (s : Text)
  | array (items : List Json)
  | object (members : List (Text × Json))

namespace Json

/-- What stands between items and behind keys; with an indentation each item has a line. -/
structure Style where
  item : List Char
  key : List Char
  indent : Option Nat

def compact : Style := ⟨[','], [':'], none⟩

def spaced : Style := ⟨[',', ' '], [':', ' '], none⟩

def indented : Style := ⟨[','], [':', ' '], some 2⟩

/-- Doubles are laid out as in other texts, but what is not finite has its name in full. -/
def floatLayout : Binary64.Layout := { Binary64.textLayout with infinity := "Infinity", nan := "NaN" }

def unitEscape (n : Nat) : List Char := '\\' :: 'u' :: Text.hexDigits 4 n

/-- The UTF-16 units of a character, each as an escape. -/
def unitEscapes (c : Char) : List Char :=
  if c.toNat < 0x10000 then unitEscape c.toNat
  else
    let n := c.toNat - 0x10000
    unitEscape (0xd800 + n / 0x400) ++ unitEscape (0xdc00 + n % 0x400)

def charText (c : Char) : List Char :=
  if c == '\x22' || c == '\\' then ['\\', c]
  else if c == '\n' then ['\\', 'n']
  else if c == '\r' then ['\\', 'r']
  else if c == '\t' then ['\\', 't']
  else if c == '\x0c' then ['\\', 'f']
  else if c == '\x08' then ['\\', 'b']
  else if 0x20 ≤ c.toNat && c.toNat < 0x7f then [c]
  else unitEscapes c

def pointText : CodePoint → List Char
  | .char c => charText c
  | .surrogate u => unitEscape (CodePoint.surrogate u).toNat

def stringText (s : Text) : List Char := '\x22' :: s.flatMap pointText ++ ['\x22']

def Style.break (style : Style) (level : Nat) : List Char :=
  match style.indent with
  | none => []
  | some n => '\n' :: List.replicate (n * level) ' '

mutual

/-- The text of a tree that stands `level` containers deep. -/
def chars (style : Style) (level : Nat) : Json → List Char
  | null => ['n', 'u', 'l', 'l']
  | bool true => ['t', 'r', 'u', 'e']
  | bool false => ['f', 'a', 'l', 's', 'e']
  | int n => (toString n).toList
  | float x => (x.format floatLayout).toList
  | string s => stringText s
  | array [] => ['[', ']']
  | array (v :: vs) =>
    '[' :: style.break (level + 1) ++ chars style (level + 1) v ++ itemChars style (level + 1) vs ++
      style.break level ++ [']']
  | object [] => ['\x7b', '\x7d']
  | object ((k, v) :: ms) =>
    '\x7b' :: style.break (level + 1) ++ stringText k ++ style.key ++ chars style (level + 1) v ++
      memberChars style (level + 1) ms ++ style.break level ++ ['\x7d']

def itemChars (style : Style) (level : Nat) : List Json → List Char
  | [] => []
  | v :: vs => style.item ++ style.break level ++ chars style level v ++ itemChars style level vs

def memberChars (style : Style) (level : Nat) : List (Text × Json) → List Char
  | [] => []
  | (k, v) :: ms =>
    style.item ++ style.break level ++ stringText k ++ style.key ++ chars style level v ++
      memberChars style level ms

end

def render (style : Style) (v : Json) : String := String.ofList (v.chars style 0)

end Json
end Criteria
