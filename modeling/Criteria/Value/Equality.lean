import Criteria.Value

namespace Criteria

mutual

/-- Whether two values are equal; `none` when a signaling number is met on the way. -/
def Value.equal? : Value → Value → Option Bool
  | .undefined, b => some (b matches .undefined)
  | .null, b => some (b matches .null)
  | .text s, .text t => some (s == t)
  | .date d, .date e => some (d == e)
  | .moment m, .moment n => some (m.same n)
  | .bytes bs, .bytes cs => some (bs == cs)
  | .token l, .token k => some (l == k)
  | .list xs, .list ys => if xs.length = ys.length then Value.itemsEqual? xs ys else some false
    -- lists of different lengths are told apart before any item is looked at, tuples are not
  | .tuple xs, .tuple ys => Value.itemsEqual? xs ys
  | .mapping es, .mapping fs =>
    if es.length = fs.length then Value.entriesEqual? es fs else some false
  | a, b =>
    match a.number?, b.number? with
    | some n, some k => if n.equalityInvalid k then none else some (n.sameValue k)
    | _, _ => some false

def Value.itemsEqual? : List Value → List Value → Option Bool
  | [], [] => some true
  | x :: xs, y :: ys =>
    match Value.equal? x y with
    | some true => Value.itemsEqual? xs ys
    | r => r
  | _, _ => some false

def Value.entriesEqual? : List (Value × Value) → List (Value × Value) → Option Bool
  | [], _ => some true
  | (k, v) :: es, fs =>
    match fs.find? fun f => Value.equal? k f.1 == some true with
    | none => some false
    | some f =>
      match Value.equal? v f.2 with
      | some true => Value.entriesEqual? es fs
      | r => r

end

namespace Value

def sameKey (k l : Value) : Bool := k.equal? l == some true

end Value

namespace Entries

def get? (entries : List (Value × Value)) (key : Value) : Option Value :=
  (entries.find? fun e => e.1.sameKey key).map (·.2)

def get (entries : List (Value × Value)) (key : Value) : Value := (get? entries key).getD .undefined

/-- A key keeps its place and takes the new value; a new key comes last. -/
def insert (key value : Value) : List (Value × Value) → List (Value × Value)
  | [] => [(key, value)]
  | e :: es => if e.1.sameKey key then (e.1, value) :: es else e :: insert key value es

def ofPairs (pairs : List (Value × Value)) : List (Value × Value) :=
  pairs.foldl (fun es e => insert e.1 e.2 es) []

end Entries
end Criteria
