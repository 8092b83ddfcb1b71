import Criteria.Settings
import Criteria.Value.Equality

namespace Criteria.Settings

inductive Issue where
  | notInteger
  /-- A text with surrogates. -/
  | notCharacters
  /-- A text that denotes no integer. -/
  | notIntegerText
  | integerTooLong
  | fractional
  | notFinite
  | tooSmall
  | tooLarge
  /-- A text or integer that denotes no truth value. -/
  | notBoolText
  | notBool
  /-- Settings do not change once they are made. -/
  | frozen
deriving DecidableEq, Repr

def Issue.code : Issue → String
  | notInteger => "int_type"
  | notCharacters => "string_unicode"
  | notIntegerText => "int_parsing"
  | integerTooLong => "int_parsing_size"
  | fractional => "int_from_float"
  | notFinite => "finite_number"
  | tooSmall => "greater_than_equal"
  | tooLarge => "less_than_equal"
  | notBoolText => "bool_parsing"
  | notBool => "bool_type"
  | frozen => "frozen_instance"

def depthField : String := "max_depth"

def coerceField : String := "coerce_numeric_strings"

/-- The characters of a field that is a text, which may also be given as bytes. -/
def fieldText? (notText : Issue) : Value → Option (Except Issue (List Char))
  | .text s => some (s.chars?.elim (.error .notCharacters) .ok)
  | .bytes bs => some ((Text.decodeUtf8 bs).mapError fun _ => notText)
  | _ => none

/-- Zeros in front are dropped, with the underscores among them. In front of nothing else than a
point one character is kept. -/
def dropZeros (cs : List Char) : List Char :=
  let inRun (c : Char) : Bool := c == '0' || c == '_'
  if cs.head? == some '0' then
    let run := cs.takeWhile inRun
    let rest := cs.dropWhile inRun
    if rest.isEmpty || rest.head? == some '.' then run.drop (run.length - 1) ++ rest else rest
  else cs

def dropZeroFraction (cs : List Char) : List Char :=
  match cs.dropWhile (· != '.') with
  | _ :: fraction => if fraction.all (· == '0') then cs.takeWhile (· != '.') else cs
  | [] => cs

/-- Digits with no zero in front. -/
def isPlainNumeral (cs : List Char) : Bool :=
  !cs.isEmpty && cs.all Char.isDigit && (cs.head? != some '0' || cs.length == 1)

/-- The sign and the digits of the integer a text denotes, once white space, a plus, zeros in front,
single underscores between digits and a fraction of zeros are dropped. -/
def integerDigits? (cs : List Char) : Option (Bool × List Char) :=
  let cs := Text.trim Text.isWhiteSpace cs
  let negative := cs.head? == some '-'
  let body :=
    if negative then cs.drop 1
    else dropZeros (if cs.head? == some '+' then cs.drop 1 else cs)
  let groups := Text.splitOn '_' (dropZeroFraction body)
  if !groups.any List.isEmpty && isPlainNumeral groups.flatten then some (negative, groups.flatten)
  else none

/-- Whether a value is a whole number, found without writing it out. -/
def isWhole (x : Scaled) : Bool :=
  0 ≤ x.exponent || x.coefficient == 0 ||
    ((-x.exponent).toNat < digitCount x.coefficient &&
      x.coefficient % Nat.pow 10 (-x.exponent).toNat == 0)

def boundedDepth (x : Scaled) : Except Issue { n : Nat // 1 ≤ n ∧ n ≤ depthBound } :=
  if (x.compare (.ofInt 1)) == .lt then .error .tooSmall
  else if (x.compare (.ofInt depthBound)) == .gt then .error .tooLarge
  else
    let n := if 0 ≤ x.exponent then x.coefficient * Nat.pow 10 x.exponent.toNat
      else x.coefficient / Nat.pow 10 (-x.exponent).toNat
    if h : 1 ≤ n ∧ n ≤ depthBound then .ok ⟨n, h⟩ else .error .tooLarge

/-- Whole doubles count as integers below this bound. -/
def wholeFloatBound : Int := .ofNat (Nat.pow 2 63)

def readDepth (v : Value) : Except Issue { n : Nat // 1 ≤ n ∧ n ≤ depthBound } :=
  match fieldText? .notIntegerText v with
  | some (.error issue) => .error issue
  | some (.ok cs) =>
    match integerDigits? cs with
    | none => .error .notIntegerText
    | some (negative, ds) =>
      if Numeral.digitLimit < ds.length then .error .integerTooLong
      else boundedDepth ⟨negative, Nat.ofDigitChars 10 ds 0, 0⟩
  | none =>
    match v.number? with
    | none => .error .notInteger
    | some n =>
      match n, n.extended? with
      | .float _, some (.finite x) =>
        if !isWhole x then .error .fractional
        else if x.compare (.ofInt wholeFloatBound) == .lt &&
            x.compare (.ofInt (-wholeFloatBound)) == .gt then boundedDepth x
        else .error .integerTooLong
      | _, some (.finite x) => if isWhole x then boundedDepth x else .error .fractional
      | _, _ => .error .notFinite

def falseWords : List String := ["0", "off", "f", "false", "n", "no"]

def trueWords : List String := ["1", "on", "t", "true", "y", "yes"]

def boolWord? (cs : List Char) : Option Bool :=
  let word := String.ofList (cs.map Char.toLower)
  if falseWords.contains word then some false
  else if trueWords.contains word then some true
  else none

def inWordRange (n : Int) : Bool := -wholeFloatBound ≤ n && n < wholeFloatBound

def boolOfFloat (x : Binary64) : Except Issue Bool :=
  match x.extended? with
  | some (.finite x) =>
    if !isWhole x then .error .notBool
    else if x.compare (.ofInt 0) == .eq then .ok false
    else if x.compare (.ofInt 1) == .eq then .ok true
    else if x.compare (.ofInt wholeFloatBound) == .lt &&
        x.compare (.ofInt (-wholeFloatBound)) == .gt then .error .notBoolText
    else .error .notBool
  | _ => .error .notBool

def readSwitch (v : Value) : Except Issue Bool :=
  match fieldText? .notBoolText v with
  | some (.error issue) => .error issue
  | some (.ok cs) =>
    match boolWord? cs with
    | some b => .ok b
    | none => .error .notBoolText
  | none =>
    match v with
    | .bool b => .ok b
    | .number (.int n) =>
      if n = 0 then .ok false
      else if n = 1 then .ok true
      else if inWordRange n then .error .notBoolText
      else .error .notBool
    | .number (.float x) => boolOfFloat x
    | .number (.decimal (.finite x)) => boolOfFloat (Binary64.ofScaled x)
    | _ => .error .notBool

/-- The settings that named values give, or every field with its issue. Other names are ignored. -/
def ofFields (fields : List (String × Value)) : Except (List (String × Issue)) Settings :=
  let depth : Except Issue { n : Nat // 1 ≤ n ∧ n ≤ depthBound } :=
    match fields.lookup depthField with
    | some v => readDepth v
    | none => .ok ⟨default.maxDepth, default.inBounds⟩
  let coerce : Except Issue Bool :=
    match fields.lookup coerceField with
    | some v => readSwitch v
    | none => .ok default.coerce
  match depth, coerce with
  | .ok d, .ok c => .ok ⟨d.val, c, d.property⟩
  | .error i, .ok _ => .error [(depthField, i)]
  | .ok _, .error j => .error [(coerceField, j)]
  | .error i, .error j => .error [(depthField, i), (coerceField, j)]

/-- No field of finished settings takes a new value. -/
def assignmentIssues (name : String) : List (String × Issue) := [(name, .frozen)]

end Criteria.Settings
