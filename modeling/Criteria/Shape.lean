import Criteria.Operator
import Criteria.Resolution
import Criteria.Value.Text

namespace Criteria.Shape

inductive Problem where
  | notMapping (typeName : String)
  | pathNotText (literal : String)
  | emptySegment (path : Text)
  | operandNotMapping (location : Text) (j : Junction)
  | unknownOperator (location : Text) (j : Junction) (name : Text)
deriving DecidableEq, Repr

def Problem.message : Problem → Text
  | notMapping typeName => "Criteria must be an object, got " ++ typeName
  | pathNotText literal => "Criteria path must be a string: " ++ literal
  | emptySegment path => "Empty segment in criteria path: " ++ Text.quoted path
  | operandNotMapping location j => location ++ ": operand of '" ++ j.name ++ "' must be an object"
  | unknownOperator location j name =>
    location ++ "." ++ j.name ++ ": unsupported operator '" ++ name ++ "'"

def junction? (key : Value) : Option Junction :=
  match Operator.ofKey? key with
  | some (.junction j) => some j
  | _ => none

def itemLocation (location : Text) (index : Nat) : Text :=
  location ++ "[" ++ Nat.repr index ++ "]"

def keyLocation (location : Text) (key : Value) : Except Fault Text :=
  key.display.map fun name => location ++ "." ++ name

def unknownKeys (location : Text) (j : Junction) :
    List (Value × Value) → Except Fault (List Problem)
  | [] => .ok []
  | (key, _) :: entries =>
    if (Operator.ofKey? key).isSome then unknownKeys location j entries
    else do
      let name ← key.display
      let others ← unknownKeys location j entries
      return .unknownOperator location j name :: others

mutual

def conditionProblems (location : Text) : Value → Except Fault (List Problem)
  | .list items => itemProblems location 0 items
  | .tuple items => itemProblems location 0 items
  | .mapping entries => entryProblems location entries
  | _ => .ok []

def itemProblems (location : Text) (index : Nat) : List Value → Except Fault (List Problem)
  | [] => .ok []
  | v :: vs => do
    let found ← conditionProblems (itemLocation location index) v
    let others ← itemProblems location (index + 1) vs
    return found ++ others

def entryProblems (location : Text) : List (Value × Value) → Except Fault (List Problem)
  | [] => .ok []
  | (key, .mapping operand) :: entries => do
    let unknown ←
      match junction? key with
      | some j => unknownKeys location j operand
      | none => .ok []
    let inner ← keyLocation location key
    -- what stands under the names is looked through, whether they are known or not
    let found ← entryProblems inner operand
    let others ← entryProblems location entries
    return unknown ++ found ++ others
  | (key, v) :: entries => do
    let found ←
      match junction? key with
      | some j => .ok [.operandNotMapping location j]
      | none => do
        let inner ← keyLocation location key
        conditionProblems inner v
    let others ← entryProblems location entries
    return found ++ others

end

def firstProblem? : List (Value × Value) → Except Fault (Option Problem)
  | [] => .ok none
  | (.text path, condition) :: entries =>
    if (segments path).any List.isEmpty then .ok (some (.emptySegment path))
    else
      match conditionProblems path condition with
      | .error f => .error f
      | .ok (problem :: _) => .ok (some problem)
      | .ok [] => firstProblem? entries
  | (key, _) :: _ => key.literal.map fun l => some (.pathNotText l)

/-- What is wrong with criteria; `none` if nothing is. -/
def check (criteria : Value) : Except Fault (Option Problem) :=
  match criteria with
  | .mapping entries => firstProblem? entries
  | v => .ok (some (.notMapping v.typeName))

def verdictText : Option Problem → Text
  | none => "Valid"
  | some problem => problem.message

end Criteria.Shape
