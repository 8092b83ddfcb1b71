import Criteria.Fault
import Criteria.Value.Equality

namespace Criteria

def unordered (k l : Value) : Except Fault Bool :=
  .error (.breakdown (.keysUnordered k.qualifiedTypeName l.qualifiedTypeName))

mutual

def keyLess : Value → Value → Except Fault Bool
  | .text s, .text t => .ok (compare s t == .lt)
  | .bytes bs, .bytes cs => .ok (compare bs cs == .lt)
  | .date d, .date e => .ok (d.ordinal < e.ordinal)
  | .moment m, .moment n =>
    if m.offset.isSome == n.offset.isSome then .ok (m.instant < n.instant)
    else .error (.breakdown .offsetsUnordered)
  | .date _, .moment _ => .error (.breakdown .datesUnordered)
  | .moment _, .date _ => .error (.breakdown .datesUnordered)
  | .tuple ks, .tuple ls => keysLess ks ls
  | k, l =>
    match k.number?, l.number? with
    | some m, some n =>
      if m.orderInvalid n then .error (.breakdown .invalidOperation) else .ok (m.compare? n == some .lt)
    | _, _ => unordered k l

/-- The first difference decides. -/
def keysLess : List Value → List Value → Except Fault Bool
  | [], ls => .ok !ls.isEmpty
  | _ :: _, [] => .ok false
  | k :: ks, l :: ls => if k.sameKey l then keysLess ks ls else keyLess k l

end

section
variable {α : Type}

/-- The entries that go on as the list begins, falling or not, after an entry `last`; and the rest. -/
def takeRun (falling : Bool) (last : Value × α) :
    List (Value × α) → Except Fault (List (Value × α) × List (Value × α))
  | [] => .ok ([], [])
  | e :: es => do
    if (← keyLess e.1 last.1) == falling then
      let (run, rest) ← takeRun falling e es
      return (e :: run, rest)
    else return ([], e :: es)

/-- The place of an entry among sorted ones is found by halving. -/
def insertSorted (e : Value × α) (es : List (Value × α)) : Except Fault (List (Value × α)) :=
  match _h : es.drop (es.length / 2) with
  | [] => .ok [e]
  | middle :: right => do
    if ← keyLess e.1 middle.1 then
      return (← insertSorted e (es.take (es.length / 2))) ++ middle :: right
    else return es.take (es.length / 2) ++ middle :: (← insertSorted e right)
termination_by es.length
decreasing_by
  all_goals
    have := congrArg List.length _h
    simp only [List.length_drop, List.length_cons, List.length_take] at this ⊢
    omega

/-- Entries sorted by keys of any type: a run at the start, into which the others are inserted. -/
def sortMixed : List (Value × α) → Except Fault (List (Value × α))
  | first :: second :: rest => do
    -- the comparisons are made in a fixed order, since the first two keys without an order are named
    let falling ← keyLess second.1 first.1
    let (run, rest) ← takeRun falling first (second :: rest)
    let sorted := if falling then (first :: run).reverse else first :: run
    rest.foldlM (fun es e => insertSorted e es) sorted
  | es => .ok es

def textEntries? (es : List (Value × α)) : Option (List (Text × α)) :=
  es.mapM fun (k, v) => k.text?.map fun s => (s, v)

def sortTexts (es : List (Text × α)) : List (Text × α) := es.mergeSort fun e f => (compare e.1 f.1).isLE

def sortEntries (es : List (Value × α)) : Except Fault (List (Value × α)) :=
  match textEntries? es with
  | some ts => .ok ((sortTexts ts).map fun (s, v) => (.text s, v))
  | none => sortMixed es

end
end Criteria
