import Criteria.Json.Token
import Criteria.Number.Numeral
import Criteria.Value.Equality

namespace Criteria.Json

/-- Why a text yields no value: a problem at a position, a numeral beyond the digit limit, or an object
that was turned down. -/
inductive ReadFault (ε : Type) where
  | malformed (problem : Problem) (position : Nat)
  | numeralTooLong (digits : Nat)
  | rejected (why : ε)

inductive Frame where
  | array (items : List Value)
  | object (members : List (Value × Value)) (key : Text)

inductive State where
  | value
  | itemOrClose
  | nameOrClose
  | name (members : List (Value × Value))
  | colon (members : List (Value × Value)) (key : Text)
  /-- A value is complete. -/
  | done (v : Value)

structure Config where
  stack : List Frame
  state : State

def Config.problem (config : Config) : Problem :=
  match config.state with
  | .value => .expectedValue
  | .itemOrClose => .expectedValue
  | .nameOrClose => .expectedName
  | .name _ => .expectedName
  | .colon .. => .expectedColon
  | .done _ => if config.stack.isEmpty then .extraData else .expectedComma

section
variable {ε : Type} (close : List (Value × Value) → Except ε Value)

/-- The object whose members, last first, are complete. -/
def closeObject (members : List (Value × Value)) : Except (ReadFault ε) Value :=
  (close (Entries.ofPairs members.reverse)).mapError .rejected

def integer (negative : Bool) (digits : List Char) : Except (ReadFault ε) Value :=
  if Numeral.digitLimit < digits.length then .error (.numeralTooLong digits.length)
  else
    let n : Int := Nat.ofDigitChars 10 digits 0
    .ok (.int (if negative then -n else n))

def startValue (stack : List Frame) (lexeme : Lexeme) : Except (ReadFault ε) Config :=
  match lexeme.token with
  | .openObject => .ok ⟨stack, .nameOrClose⟩
  | .openArray => .ok ⟨stack, .itemOrClose⟩
  | .null => .ok ⟨stack, .done .null⟩
  | .bool b => .ok ⟨stack, .done (.bool b)⟩
  | .string s => .ok ⟨stack, .done (.text s)⟩
  | .int negative digits => (integer negative digits).map fun v => ⟨stack, .done v⟩
  | .float x => .ok ⟨stack, .done (.number (.float x))⟩
  | .badString problem position => .error (.malformed problem position)
  | _ => .error (.malformed .expectedValue lexeme.start)

def startName (stack : List Frame) (members : List (Value × Value)) (lexeme : Lexeme) :
    Except (ReadFault ε) Config :=
  match lexeme.token with
  | .string s => .ok ⟨stack, .colon members s⟩
  | .badString problem position => .error (.malformed problem position)
  | _ => .error (.malformed .expectedName lexeme.start)

def continueValue (stack : List Frame) (v : Value) (lexeme : Lexeme) :
    Except (ReadFault ε) Config :=
  match stack, lexeme.token with
  | .array items :: stack, .comma => .ok ⟨.array (v :: items) :: stack, .value⟩
  | .array items :: stack, .closeArray => .ok ⟨stack, .done (.list (v :: items).reverse)⟩
  | .object members key :: stack, .comma => .ok ⟨stack, .name ((.text key, v) :: members)⟩
  | .object members key :: stack, .closeObject =>
    (closeObject close ((.text key, v) :: members)).map fun v => ⟨stack, .done v⟩
  | [], _ => .error (.malformed .extraData lexeme.start)
  | _, _ => .error (.malformed .expectedComma lexeme.start)

def step (config : Config) (lexeme : Lexeme) : Except (ReadFault ε) Config :=
  match config.state with
  | .value => startValue config.stack lexeme
  | .itemOrClose =>
    match lexeme.token with
    | .closeArray => .ok ⟨config.stack, .done (.list [])⟩
    | _ => startValue (.array [] :: config.stack) lexeme
  | .nameOrClose =>
    match lexeme.token with
    | .closeObject => (closeObject close []).map fun v => ⟨config.stack, .done v⟩
    | _ => startName config.stack [] lexeme
  | .name members => startName config.stack members lexeme
  | .colon members key =>
    match lexeme.token with
    | .colon => .ok ⟨.object members key :: config.stack, .value⟩
    | _ => .error (.malformed .expectedColon lexeme.start)
  | .done v => continueValue close config.stack v lexeme

/-- The value of a list of tokens, of a text that ends at `stop`. -/
def readLexemes (stop : Nat) (lexemes : List Lexeme) : Except (ReadFault ε) Value := do
  let config ← lexemes.foldlM (step close) ⟨[], .value⟩
  match config with
  | ⟨[], .done v⟩ => return v
  | config => throw (.malformed config.problem stop)

/-- The value of a text. A byte order mark is no part of one. -/
def read (cs : List Char) : Except (ReadFault ε) Value :=
  if cs.head? == some '\ufeff' then .error (.malformed .byteOrderMark 0)
  else readLexemes close cs.length (lexemesFrom 0 cs)

end

/-- The line and the column of a position, both counted from 1. -/
def lineAndColumn (cs : List Char) (position : Nat) : Nat × Nat :=
  let before := cs.take position
  (before.count '\n' + 1, (before.reverse.takeWhile (· != '\n')).length + 1)

def Problem.message : Problem → String
  | .expectedValue => "Expecting value"
  | .expectedName => "Expecting property name enclosed in double quotes"
  | .expectedColon => "Expecting ':' delimiter"
  | .expectedComma => "Expecting ',' delimiter"
  | .extraData => "Extra data"
  | .unterminatedString => "Unterminated string starting at"
  | .controlCharacter => "Invalid control character at"
  | .badEscape => "Invalid \\escape"
  | .badUnicodeEscape => "Invalid \\uXXXX escape"
  | .byteOrderMark => "Unexpected UTF-8 BOM (decode using utf-8-sig)"

structure Located where
  problem : Problem
  line : Nat
  column : Nat
  position : Nat
deriving DecidableEq, Repr

def Problem.locate (problem : Problem) (cs : List Char) (position : Nat) : Located :=
  let (line, column) := lineAndColumn cs position
  ⟨problem, line, column, position⟩

def Located.message (l : Located) : String :=
  l.problem.message ++ ": line " ++ Nat.repr l.line ++ " column " ++ Nat.repr l.column ++
    " (char " ++ Nat.repr l.position ++ ")"

end Criteria.Json
