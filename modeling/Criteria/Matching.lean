import Criteria.Comparison

namespace Criteria

namespace Verdict

/-- The second is asked only if the first does not hold. -/
@[macro_inline] def or (a b : Verdict) : Verdict :=
  match a with
  | .ok false => b
  | r => r

@[macro_inline] def and (a b : Verdict) : Verdict :=
  match a with
  | .ok true => b
  | r => r

end Verdict

/-- Nothing is asked beyond the depth limit. -/
@[macro_inline] def withinDepth (settings : Settings) (depth : Int) (verdict : Verdict) : Verdict :=
  if settings.maxDepth < depth then .error (.refusal (.conditionTooDeep settings.maxDepth))
  else verdict

def anyItem (test : Value → Verdict) : List Value → Verdict
  | [] => .ok false
  | v :: vs => (test v).or (anyItem test vs)

mutual

/-- A test of values that are no sequences, made on the items of sequences within sequences. -/
def broadcast (settings : Settings) (test : Value → Int → Verdict) (depth : Int) :
    Value → Verdict
  | .list items => withinDepth settings depth (broadcastItems settings test (depth + 1) items)
  | .tuple items => withinDepth settings depth (broadcastItems settings test (depth + 1) items)
  | v => withinDepth settings depth (test v depth)

def broadcastItems (settings : Settings) (test : Value → Int → Verdict) (depth : Int) :
    List Value → Verdict
  | [] => .ok false
  | v :: vs => (broadcast settings test depth v).or (broadcastItems settings test depth vs)

end

/-- An operator that no other operators stand under. A junction has none to combine then. -/
def applyPlain (settings : Settings) (op : Operator) (v operand : Value) : Verdict :=
  match op with
  | .relation r => related settings r v operand
  | .membership => anyItem (primitiveEqual settings v) (operand.items?.getD [])
  | .junction j => .error (.refusal (.operandNotMapping j))

def unknownOperator (key : Value) : Verdict :=
  key.display >>= fun name => .error (.refusal (.unknownOperator name))

mutual

/-- Whether a value at a depth satisfies a condition. -/
def holds (settings : Settings) : Value → Value → Int → Verdict
  | .list alternatives => fun v depth =>
    broadcast settings (fun v depth => anyHolds settings alternatives v (depth + 1)) depth v
  | .tuple alternatives => fun v depth =>
    broadcast settings (fun v depth => anyHolds settings alternatives v (depth + 1)) depth v
  | .mapping entries => fun v depth =>
    broadcast settings (fun v depth =>
      match v with
      | .mapping fields => allFieldsHold settings entries fields (depth + 1)
        -- the same keys are names of fields in front of a mapping and names of operators in front of anything else
      | _ => allOperatorsHold settings entries v (depth + 1)) depth v
  | c => fun v depth =>
    broadcast settings (fun v _ =>
      -- a mapping that is left over is equal to no primitive
      if v.isMapping then .ok false else primitiveEqual settings v c) depth v

def anyHolds (settings : Settings) : List Value → Value → Int → Verdict
  | [] => fun _ _ => .ok false
  | c :: cs => fun v depth => (holds settings c v depth).or (anyHolds settings cs v depth)

/-- Whether the fields of a mapping satisfy the conditions under their names. The alternatives for a
field stand at the same depth as a single condition. -/
def allFieldsHold (settings : Settings) :
    List (Value × Value) → List (Value × Value) → Int → Verdict
  | [] => fun _ _ => .ok true
  | (key, .list alternatives) :: entries => fun fields depth =>
    (anyHolds settings alternatives (Entries.get fields key) depth).and
      (allFieldsHold settings entries fields depth)
  | (key, .tuple alternatives) :: entries => fun fields depth =>
    (anyHolds settings alternatives (Entries.get fields key) depth).and
      (allFieldsHold settings entries fields depth)
  | (key, c) :: entries => fun fields depth =>
    (holds settings c (Entries.get fields key) depth).and (allFieldsHold settings entries fields depth)

def allOperatorsHold (settings : Settings) : List (Value × Value) → Value → Int → Verdict
  | [] => fun _ _ => .ok true
  | (key, operand) :: entries => fun v depth =>
    (applyOperator settings key operand v depth).and (allOperatorsHold settings entries v depth)

def anyOperatorHolds (settings : Settings) : List (Value × Value) → Value → Int → Verdict
  | [] => fun _ _ => .ok false
  | (key, operand) :: entries => fun v depth =>
    (applyOperator settings key operand v depth).or (anyOperatorHolds settings entries v depth)

def applyOperator (settings : Settings) (key : Value) : Value → Value → Int → Verdict
  | .mapping entries => fun v depth =>
    -- the depth is checked before the name is looked up
    withinDepth settings depth <|
      match Operator.ofKey? key with
      | none => unknownOperator key
      | some (.junction .all) => allOperatorsHold settings entries v (depth + 1)
      | some (.junction .any) => anyOperatorHolds settings entries v (depth + 1)
      | some op => applyPlain settings op v (.mapping entries)
  | operand => fun v depth =>
    withinDepth settings depth <|
      match Operator.ofKey? key with
      | none => unknownOperator key
      | some op => applyPlain settings op v operand

end

end Criteria
