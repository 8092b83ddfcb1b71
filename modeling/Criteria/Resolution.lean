import Criteria.Fault
import Criteria.Value.Equality

namespace Criteria

def segments (path : Text) : List Text := Text.splitOn (.char '.') path

namespace Value

/-- What a value adds to the results of a sequence: itself, or its items. -/
def spread (v : Value) : List Value := v.items?.getD [v]

mutual

/-- One segment, looked up in a value that stands inside `depth` sequences. -/
def descend (limit : Int) (segment : Text) (depth : Nat) (v : Value) : Except Refusal Value :=
  if limit < depth then .error (.segmentTooDeep segment limit)
  else
    match v with
    | list items => (descendItems limit segment (depth + 1) items).map list
    | tuple items => (descendItems limit segment (depth + 1) items).map list
    | mapping entries => .ok (Entries.get entries (.text segment))
    | _ => .ok undefined

def descendItems (limit : Int) (segment : Text) (depth : Nat) :
    List Value → Except Refusal (List Value)
  | [] => .ok []
  | v :: vs => do
    let found ← descend limit segment depth v
    let others ← descendItems limit segment depth vs
    return found.spread ++ others

end

def follow (limit : Int) (v : Value) (path : List Text) : Except Refusal Value :=
  -- every segment starts anew, with the whole limit before it
  path.foldlM (fun v segment => descend limit segment 0 v) v

/-- The value a path leads to. Not more than `limit` sequences may lie within each other. -/
def resolve (limit : Int) (v : Value) (path : Text) : Except Refusal Value :=
  v.follow limit (segments path)

end Value
end Criteria
