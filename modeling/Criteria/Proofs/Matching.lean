import Criteria.Proofs.Leaves
import Criteria.Proofs.Verdict

namespace Criteria
variable {settings : Settings} {v operand key c : Value} {depth : Int}

section Broadcast
variable {test : Value → Int → Verdict}

@[simp] theorem broadcast_of_leaf (h : v.items? = none) :
    broadcast settings test depth v = withinDepth settings depth (test v depth) := by
  cases v <;> first | rfl | simp [Value.items?] at h

theorem broadcast_of_items? {items : List Value} (h : v.items? = some items) :
    broadcast settings test depth v =
      withinDepth settings depth (broadcastItems settings test (depth + 1) items) := by
  cases v <;> simp_all [Value.items?, broadcast]

end Broadcast

theorem holds_of_items? {alternatives : List Value} (h : c.items? = some alternatives) :
    holds settings c v depth =
      broadcast settings (fun v depth => anyHolds settings alternatives v (depth + 1)) depth v := by
  cases c <;> simp_all [Value.items?, holds]

theorem holds_of_primitive (h : c.isObject = false) :
    holds settings c v depth =
      broadcast settings
        (fun v _ => if v.isMapping then .ok false else primitiveEqual settings v c) depth v := by
  cases c <;> first | rfl | simp [Value.isObject, Value.isMapping, Value.isSequence, Value.kind] at h

/-- The test of a mapping of conditions on a value that is no sequence. -/
def entriesHold (settings : Settings) (entries : List (Value × Value)) (v : Value) (depth : Int) :
    Verdict :=
  match v with
  | .mapping fields => allFieldsHold settings entries fields (depth + 1)
  | _ => allOperatorsHold settings entries v (depth + 1)

@[simp] theorem holds_mapping {entries : List (Value × Value)} :
    holds settings (.mapping entries) v depth =
      broadcast settings (entriesHold settings entries) depth v := by
  rw [holds]
  rfl

theorem entriesHold_of_not_mapping {entries : List (Value × Value)} (h : v.isMapping = false) :
    entriesHold settings entries v depth = allOperatorsHold settings entries v (depth + 1) := by
  cases v <;> first | rfl | simp [Value.isMapping, Value.kind] at h

def fieldHolds (settings : Settings) (c v : Value) (depth : Int) : Verdict :=
  match c.items? with
  | some alternatives => anyHolds settings alternatives v depth
  | none => holds settings c v depth

theorem fieldHolds_of_items? {alternatives : List Value} (h : c.items? = some alternatives) :
    fieldHolds settings c v depth = anyHolds settings alternatives v depth := by
  rw [fieldHolds, h]

theorem fieldHolds_of_leaf (h : c.items? = none) :
    fieldHolds settings c v depth = holds settings c v depth := by
  rw [fieldHolds, h]

theorem allFieldsHold_cons {entries fields : List (Value × Value)} :
    allFieldsHold settings ((key, c) :: entries) fields depth =
      (fieldHolds settings c (Entries.get fields key) depth).and
        (allFieldsHold settings entries fields depth) := by
  cases c <;> simp [allFieldsHold, fieldHolds, Value.items?]

theorem applyOperator_unknown (h : Operator.ofKey? key = none) :
    applyOperator settings key operand v depth = withinDepth settings depth (unknownOperator key) := by
  cases operand <;> simp [applyOperator, h]

theorem applyOperator_relation {r : Relation} (h : Operator.ofKey? key = some (.relation r)) :
    applyOperator settings key operand v depth =
      withinDepth settings depth (related settings r v operand) := by
  cases operand <;> simp [applyOperator, applyPlain, h]

theorem applyOperator_membership (h : Operator.ofKey? key = some .membership) :
    applyOperator settings key operand v depth =
      withinDepth settings depth
        (anyItem (primitiveEqual settings v) (operand.items?.getD [])) := by
  cases operand <;> simp [applyOperator, applyPlain, h]

theorem applyOperator_all {entries : List (Value × Value)}
    (h : Operator.ofKey? key = some (.junction .all)) :
    applyOperator settings key (.mapping entries) v depth =
      withinDepth settings depth (allOperatorsHold settings entries v (depth + 1)) := by
  simp [applyOperator, h]

theorem applyOperator_any {entries : List (Value × Value)}
    (h : Operator.ofKey? key = some (.junction .any)) :
    applyOperator settings key (.mapping entries) v depth =
      withinDepth settings depth (anyOperatorHolds settings entries v (depth + 1)) := by
  simp [applyOperator, h]

theorem applyOperator_of_not_mapping {j : Junction} (h : Operator.ofKey? key = some (.junction j))
    (ho : operand.isMapping = false) :
    applyOperator settings key operand v depth =
      withinDepth settings depth (.error (.refusal (.operandNotMapping j))) := by
  cases operand <;> simp_all [applyOperator, applyPlain, Value.isMapping, Value.kind]

theorem broadcast_of_lt {test : Value → Int → Verdict} (h : settings.maxDepth < depth) :
    broadcast settings test depth v = .error (tooDeep settings) := by
  cases hv : v.items? with
  | none => rw [broadcast_of_leaf hv, withinDepth_of_lt h]
  | some items => rw [broadcast_of_items? hv, withinDepth_of_lt h]

theorem holds_of_lt (h : settings.maxDepth < depth) :
    holds settings c v depth = .error (tooDeep settings) := by
  cases c <;> exact broadcast_of_lt h

theorem applyOperator_of_lt (h : settings.maxDepth < depth) :
    applyOperator settings key operand v depth = .error (tooDeep settings) := by
  cases operand <;> exact withinDepth_of_lt h _

section Searches
variable {E : Fault → Prop} {P : Value → Prop}

@[simp] theorem anyItem_eq (test : Value → Verdict) (items : List Value) :
    anyItem test items = .any (items.map test) := by
  induction items with
  | nil => rfl
  | cons x xs ih => rw [anyItem, ih, List.map_cons, Verdict.any]

@[simp] theorem broadcastItems_eq (test : Value → Int → Verdict) (items : List Value) :
    broadcastItems settings test depth items = .any (items.map (broadcast settings test depth)) := by
  induction items with
  | nil => rfl
  | cons x xs ih => rw [broadcastItems, ih, List.map_cons, Verdict.any]

@[simp] theorem anyHolds_eq (cs : List Value) :
    anyHolds settings cs v depth = .any (cs.map fun c => holds settings c v depth) := by
  induction cs with
  | nil =>
    rw [anyHolds]
    rfl
  | cons c cs ih => rw [List.map_cons, Verdict.any, ← ih, anyHolds]

@[simp] theorem allFieldsHold_eq (entries fields : List (Value × Value)) :
    allFieldsHold settings entries fields depth =
      .all (entries.map fun e => fieldHolds settings e.2 (Entries.get fields e.1) depth) := by
  induction entries with
  | nil =>
    rw [allFieldsHold]
    rfl
  | cons e es ih => rw [allFieldsHold_cons, ih, List.map_cons, Verdict.all]

@[simp] theorem allOperatorsHold_eq (entries : List (Value × Value)) :
    allOperatorsHold settings entries v depth =
      .all (entries.map fun e => applyOperator settings e.1 e.2 v depth) := by
  induction entries with
  | nil =>
    rw [allOperatorsHold]
    rfl
  | cons e es ih => rw [List.map_cons, Verdict.all, ← ih, allOperatorsHold]

@[simp] theorem anyOperatorHolds_eq (entries : List (Value × Value)) :
    anyOperatorHolds settings entries v depth =
      .any (entries.map fun e => applyOperator settings e.1 e.2 v depth) := by
  induction entries with
  | nil =>
    rw [anyOperatorHolds]
    rfl
  | cons e es ih => rw [List.map_cons, Verdict.any, ← ih, anyOperatorHolds]

/-- What the operators under a junction come to. Those of a condition stand as under `and`. -/
def junctionHolds (settings : Settings) (j : Junction) (entries : List (Value × Value)) (v : Value)
    (depth : Int) : Verdict :=
  .joined j (entries.map fun e => applyOperator settings e.1 e.2 v depth)

theorem applyOperator_junction {j : Junction} {entries : List (Value × Value)}
    (h : Operator.ofKey? key = some (.junction j)) :
    applyOperator settings key (.mapping entries) v depth =
      withinDepth settings depth (junctionHolds settings j entries v (depth + 1)) := by
  cases j with
  | all => rw [applyOperator_all h, allOperatorsHold_eq]; rfl
  | any => rw [applyOperator_any h, anyOperatorHolds_eq]; rfl

theorem broadcast_tells {test : Value → Int → Verdict} (hE : E (tooDeep settings))
    (h : ∀ l ∈ v.leaves, ∀ d, (test l d).Tells (P l) E) :
    (broadcast settings test depth v).Tells (∃ l ∈ v.leaves, P l) E := by
  induction v using Value.sequence_induction generalizing depth with
  | leaf v hv =>
    rw [broadcast_of_leaf hv]
    rw [Value.leaves_of_leaf hv] at h ⊢
    exact ((h v (by simp) depth).withinDepth hE).congr (by simp)
  | sequence v items hv ih =>
    rw [broadcast_of_items? hv, broadcastItems_eq]
    rw [Value.leaves_of_items? hv] at h ⊢
    have hx : ∀ x ∈ items, (broadcast settings test (depth + 1) x).Tells (∃ l ∈ x.leaves, P l) E :=
      fun x hx => ih x hx fun l hl d => h l (List.mem_flatMap.2 ⟨x, hx, hl⟩) d
    refine ((Verdict.Tells.any hx).withinDepth hE).congr ?_
    -- some leaf of some item is some leaf of the sequence
    simp only [List.mem_flatMap]
    refine ⟨?_, ?_⟩
    · intro ⟨x, hx, l, hl, hp⟩
      exact ⟨l, ⟨x, hx, hl⟩, hp⟩
    · intro ⟨l, ⟨x, hx, hl⟩, hp⟩
      exact ⟨x, hx, l, hl, hp⟩

end Searches
end Criteria
