import Criteria.Proofs.DepthLimit
import Criteria.Proofs.Satisfaction

namespace Criteria

/-- What the steps down into a value count: to an item of a sequence, to an item of a sequence under a key, and
to what stands under a key. -/
structure Weights where
  item : Nat
  alternative : Nat
  field : Nat

mutual

/-- The most that the steps on a way down into a value count together. -/
def Value.weight (w : Weights) : Value → Nat
  | .list items => Value.itemsWeight w items + w.item
  | .tuple items => Value.itemsWeight w items + w.item
  | .mapping entries => Value.entriesWeight w entries + w.field
  | _ => 0

def Value.itemsWeight (w : Weights) : List Value → Nat
  | [] => 0
  | v :: vs => max (v.weight w) (Value.itemsWeight w vs)

def Value.entriesWeight (w : Weights) : List (Value × Value) → Nat
  | [] => 0
  | (_, .list items) :: es => max (Value.itemsWeight w items + w.alternative) (Value.entriesWeight w es)
  | (_, .tuple items) :: es => max (Value.itemsWeight w items + w.alternative) (Value.entriesWeight w es)
  | (_, v) :: es => max (v.weight w) (Value.entriesWeight w es)

end

namespace Value
variable {v x c : Value} {items : List Value} {entries : List (Value × Value)} {w : Weights} {n : Nat}

def sequenceDepth (v : Value) : Nat := v.weight ⟨1, 1, 0⟩

/-- How many levels a condition has. The alternatives for a field are on one level with the field. -/
def levels (c : Value) : Nat := c.weight ⟨1, 0, 1⟩

def fieldWeight (w : Weights) (v : Value) : Nat :=
  match v.items? with
  | some items => itemsWeight w items + w.alternative
  | none => v.weight w

def fieldLevels (c : Value) : Nat := c.fieldWeight ⟨1, 0, 1⟩

@[simp] theorem itemsHeight_le_iff : itemsHeight items ≤ n ↔ ∀ x ∈ items, x.height ≤ n := by
  induction items with
  | nil => simp [itemsHeight]
  | cons x xs ih => rw [itemsHeight, Nat.max_le, List.forall_mem_cons, ih]

@[simp] theorem entriesHeight_le_iff : entriesHeight entries ≤ n ↔ ∀ e ∈ entries, e.2.height ≤ n := by
  induction entries with
  | nil => simp [entriesHeight]
  | cons e es ih => rw [entriesHeight, Nat.max_le, List.forall_mem_cons, ih]

@[simp] theorem itemsWeight_le_iff : itemsWeight w items ≤ n ↔ ∀ x ∈ items, x.weight w ≤ n := by
  induction items with
  | nil => simp [itemsWeight]
  | cons x xs ih => rw [itemsWeight, Nat.max_le, List.forall_mem_cons, ih]

@[simp] theorem entriesWeight_cons (key c : Value) :
    entriesWeight w ((key, c) :: entries) = max (c.fieldWeight w) (entriesWeight w entries) := by
  cases c <;> rfl

@[simp] theorem entriesWeight_le_iff :
    entriesWeight w entries ≤ n ↔ ∀ e ∈ entries, e.2.fieldWeight w ≤ n := by
  induction entries with
  | nil => simp [entriesWeight]
  | cons e es ih => rw [entriesWeight_cons, Nat.max_le, List.forall_mem_cons, ih]

theorem height_of_items? (h : v.items? = some items) : v.height = itemsHeight items + 1 := by
  cases v <;> cases h <;> rfl

theorem weight_of_items? (h : v.items? = some items) : v.weight w = itemsWeight w items + w.item := by
  cases v <;> cases h <;> rfl

theorem weight_of_primitive (h : v.isObject = false) : v.weight w = 0 := by
  cases v <;> first | rfl | exact nomatch h

theorem fieldWeight_of_items? (h : v.items? = some items) :
    v.fieldWeight w = itemsWeight w items + w.alternative := by
  rw [fieldWeight, h]

theorem fieldWeight_of_leaf (h : v.items? = none) : v.fieldWeight w = v.weight w := by
  rw [fieldWeight, h]

theorem weight_le_of_mem_items (h : v.items? = some items) (hx : x ∈ items) :
    x.weight w + w.item ≤ v.weight w := by
  rw [weight_of_items? h]
  exact Nat.add_le_add_right (itemsWeight_le_iff.1 (Nat.le_refl _) x hx) _

theorem weight_le_of_mem_alternatives (h : v.items? = some items) (hx : x ∈ items) :
    x.weight w + w.alternative ≤ v.fieldWeight w := by
  rw [fieldWeight_of_items? h]
  exact Nat.add_le_add_right (itemsWeight_le_iff.1 (Nat.le_refl _) x hx) _

theorem fieldWeight_le_of_mem_entries {e : Value × Value} (he : e ∈ entries) :
    e.2.fieldWeight w + w.field ≤ (mapping entries).weight w :=
  Nat.add_le_add_right (entriesWeight_le_iff.1 (Nat.le_refl _) e he) _

theorem weights_le_height (hi : w.item ≤ 1) (ha : w.alternative ≤ 1) (hf : w.field ≤ 1) (v : Value) :
    v.weight w ≤ v.height ∧ v.fieldWeight w ≤ v.height := by
  induction v using nested_induction with
  | primitive v hv =>
    rw [fieldWeight_of_leaf (isObject_eq_false_iff.1 hv).2, weight_of_primitive hv]
    exact ⟨Nat.zero_le _, Nat.zero_le _⟩
  | sequence v items hv ih =>
    rw [weight_of_items? hv, fieldWeight_of_items? hv, height_of_items? hv]
    have hitems : itemsWeight w items ≤ itemsHeight items :=
      itemsWeight_le_iff.2 fun x hx => Nat.le_trans (ih x hx).1 (itemsHeight_le_iff.1 (Nat.le_refl _) x hx)
    omega
  | mapping entries ih =>
    have hentries : entriesWeight w entries ≤ entriesHeight entries :=
      entriesWeight_le_iff.2 fun e he =>
        Nat.le_trans (ih e he).2.2 (entriesHeight_le_iff.1 (Nat.le_refl _) e he)
    rw [fieldWeight_of_leaf rfl, weight, height]
    omega

theorem sequenceDepth_le_height (v : Value) : v.sequenceDepth ≤ v.height :=
  (weights_le_height (by decide) (by decide) (by decide) v).1

theorem levels_le_height (c : Value) : c.levels ≤ c.height :=
  (weights_le_height (by decide) (by decide) (by decide) c).1

@[simp] theorem fieldWeight_sequences (v : Value) : v.fieldWeight ⟨1, 1, 0⟩ = v.sequenceDepth := by
  cases v <;> rfl

theorem sequenceDepth_lt_of_mem_items (h : v.items? = some items) (hx : x ∈ items) :
    x.sequenceDepth < v.sequenceDepth :=
  weight_le_of_mem_items h hx (w := ⟨1, 1, 0⟩)

theorem sequenceDepth_le_of_mem_entries {e : Value × Value} (he : e ∈ entries) :
    e.2.sequenceDepth ≤ (mapping entries).sequenceDepth := by
  rw [← fieldWeight_sequences]
  exact fieldWeight_le_of_mem_entries he (w := ⟨1, 1, 0⟩)

theorem sequenceDepth_get_le (entries : List (Value × Value)) (key : Value) :
    (Entries.get entries key).sequenceDepth ≤ (mapping entries).sequenceDepth := by
  rw [Entries.get, Entries.get?]
  cases hf : entries.find? fun e => e.1.sameKey key with
  | none => exact Nat.zero_le _
  | some e => exact sequenceDepth_le_of_mem_entries (List.mem_of_find?_eq_some hf)

theorem sequenceDepth_le_of_part {key : Option Value} (h : Part v key x) :
    x.sequenceDepth ≤ v.sequenceDepth := by
  induction h with
  | whole => exact Nat.le_refl _
  | item _ hi hx ih => exact Nat.le_trans (Nat.le_of_lt (sequenceDepth_lt_of_mem_items hi hx)) ih
  | entry _ he ih => exact Nat.le_trans (sequenceDepth_le_of_mem_entries he) ih

theorem sequenceDepth_pos (h : v.items? = some items) : 0 < v.sequenceDepth := by
  rw [sequenceDepth, weight_of_items? h]
  exact Nat.succ_pos _

theorem sequenceDepth_eq_zero_iff :
    v.sequenceDepth = 0 ↔ ∀ key x, Part v key x → x.isSequence = false := by
  constructor
  · intro h key x hx
    have hle := sequenceDepth_le_of_part hx
    cases hi : x.items? with
    | none => exact isSequence_eq_false_iff.2 hi
    | some items =>
      have hpos := sequenceDepth_pos hi
      omega
  · intro h
    induction v using nested_induction with
    | primitive v hv => exact weight_of_primitive hv
    | sequence v items hv _ =>
      have hsequence := h none v .whole
      rw [isSequence_of_items? hv] at hsequence
      exact nomatch hsequence
    | mapping entries ih =>
      have hentries : entriesWeight ⟨1, 1, 0⟩ entries ≤ 0 := by
        refine entriesWeight_le_iff.2 fun e he => Nat.le_of_eq ?_
        rw [fieldWeight_sequences]
        -- a part of what stands under a key is a part of the whole
        refine (ih e he).2 fun key x hx => ?_
        obtain ⟨under, hpart⟩ := (Part.entry .whole he).trans hx
        exact h under x hpart
      exact Nat.le_zero.1 hentries

theorem levels_lt_of_mem_items (h : c.items? = some items) (hx : x ∈ items) : x.levels < c.levels :=
  weight_le_of_mem_items h hx (w := ⟨1, 0, 1⟩)

theorem levels_le_of_mem_alternatives (h : c.items? = some items) (hx : x ∈ items) :
    x.levels ≤ c.fieldLevels :=
  weight_le_of_mem_alternatives h hx (w := ⟨1, 0, 1⟩)

theorem fieldLevels_of_leaf (h : c.items? = none) : c.fieldLevels = c.levels := fieldWeight_of_leaf h

theorem fieldLevels_lt_of_mem_entries {e : Value × Value} (he : e ∈ entries) :
    e.2.fieldLevels < (mapping entries).levels :=
  fieldWeight_le_of_mem_entries he (w := ⟨1, 0, 1⟩)

end Value

section Verdicts
variable {settings : Settings} {depth : Int} {r : Verdict}

theorem not_failsForDepth_ok {b : Bool} : ¬FailsForDepth (.ok b : Verdict) := fun ⟨_, h, _⟩ => nomatch h

theorem not_failsForDepth_of_primitives (h : ∀ f, r = .error f → f.OfPrimitives) : ¬FailsForDepth r := by
  intro ⟨f, hf, hd⟩
  obtain ⟨refusal, rfl, -⟩ := hd
  exact nomatch h _ hf

theorem not_failsForDepth_withinDepth (hd : depth ≤ settings.maxDepth) (h : ¬FailsForDepth r) :
    ¬FailsForDepth (withinDepth settings depth r) := by
  rw [withinDepth_of_le hd]
  exact h

variable {α : Type} {test : α → Verdict} {xs : List α}

theorem tells_of_not_failsForDepth (h : ¬FailsForDepth r) :
    r.Tells (r = .ok true) fun f => ¬f.IsDepth :=
  .of_faults fun f hf hd => h ⟨f, hf, hd⟩

theorem not_failsForDepth_of_tells {P : Prop} (h : r.Tells P fun f => ¬f.IsDepth) : ¬FailsForDepth r :=
  fun ⟨f, hf, hd⟩ => h.faults f hf hd

theorem not_failsForDepth_any (h : ∀ x ∈ xs, ¬FailsForDepth (test x)) :
    ¬FailsForDepth (Verdict.any (xs.map test)) :=
  not_failsForDepth_of_tells (.any fun x hx => tells_of_not_failsForDepth (h x hx))

theorem not_failsForDepth_all (h : ∀ x ∈ xs, ¬FailsForDepth (test x)) :
    ¬FailsForDepth (Verdict.all (xs.map test)) :=
  not_failsForDepth_of_tells (.all fun x hx => tells_of_not_failsForDepth (h x hx))

theorem not_failsForDepth_joined {j : Junction} (h : ∀ x ∈ xs, ¬FailsForDepth (test x)) :
    ¬FailsForDepth (Verdict.joined j (xs.map test)) := by
  cases j with
  | all => exact not_failsForDepth_all h
  | any => exact not_failsForDepth_any h

end Verdicts

section Matching
variable {settings : Settings} {v c key operand : Value} {depth room : Int}

theorem broadcast_not_failsForDepth {test : Value → Int → Verdict} (hroom : room ≤ settings.maxDepth)
    (ht : ∀ l d, l.items? = none → d + l.sequenceDepth ≤ room → ¬FailsForDepth (test l d))
    (h : depth + v.sequenceDepth ≤ room) : ¬FailsForDepth (broadcast settings test depth v) := by
  induction v using Value.sequence_induction generalizing depth with
  | leaf v hv =>
    rw [broadcast_of_leaf hv]
    exact not_failsForDepth_withinDepth (by omega) (ht v depth hv h)
  | sequence v items hv ih =>
    rw [broadcast_of_items? hv, broadcastItems_eq]
    refine not_failsForDepth_withinDepth (by omega) (not_failsForDepth_any fun x hx => ih x hx ?_)
    have := Value.sequenceDepth_lt_of_mem_items hv hx
    omega

theorem unknownOperator_not_failsForDepth : ¬FailsForDepth (unknownOperator key) := by
  refine not_failsForDepth_of_tells (P := True) (unknownOperator_tells (fun f hf => ?_) fun name _ => ?_)
  · rintro ⟨r, rfl, -⟩
    exact nomatch (Value.display_eq_error hf).1
  · rintro ⟨_, hr, hcategory⟩
    cases hr
    exact nomatch hcategory

theorem applyOperator_not_failsForDepth (hv : v.isObject = false)
    (h : depth + operand.fieldLevels ≤ settings.maxDepth) :
    ¬FailsForDepth (applyOperator settings key operand v depth) := by
  induction operand using Value.mapping_induction generalizing key depth with
  | step operand ih =>
    have hd : depth ≤ settings.maxDepth := by omega
    cases hk : Operator.ofKey? key with
    | none =>
      rw [applyOperator_unknown hk]
      exact not_failsForDepth_withinDepth hd unknownOperator_not_failsForDepth
    | some op =>
      cases op with
      | relation r =>
        rw [applyOperator_relation hk]
        exact not_failsForDepth_withinDepth hd
          (not_failsForDepth_of_primitives fun f hf => (related_eq_error hf).ofPrimitives)
      | membership =>
        rw [applyOperator_membership hk, anyItem_eq]
        exact not_failsForDepth_withinDepth hd (not_failsForDepth_any fun x _ =>
          not_failsForDepth_of_primitives fun f hf => (primitiveEqual_eq_error hv hf).ofPrimitives)
      | junction j =>
        by_cases hm : operand.isMapping
        · obtain ⟨inner, rfl⟩ := Value.isMapping_iff.1 hm
          -- an operator under a junction is one level deeper, and has one level less below it
          have hinner : ∀ e ∈ inner, ¬FailsForDepth (applyOperator settings e.1 e.2 v (depth + 1)) := by
            intro e he
            apply ih inner rfl e he
            have hlevels := Value.fieldLevels_lt_of_mem_entries he
            rw [Value.fieldLevels_of_leaf rfl] at h
            omega
          rw [applyOperator_junction hk]
          exact not_failsForDepth_withinDepth hd (not_failsForDepth_joined hinner)
        · rw [Bool.not_eq_true] at hm
          rw [applyOperator_of_not_mapping hk hm]
          refine not_failsForDepth_withinDepth hd ?_
          rintro ⟨_, hf, r, rfl, hcategory⟩
          cases hf
          exact nomatch hcategory

theorem entriesHold_not_failsForDepth {entries : List (Value × Value)} (hv : v.items? = none)
    (h : depth + v.sequenceDepth + (Value.mapping entries).levels ≤ settings.maxDepth)
    (hf : ∀ e ∈ entries, ∀ x (d : Int), d + x.sequenceDepth + e.2.fieldLevels ≤ settings.maxDepth →
      ¬FailsForDepth (fieldHolds settings e.2 x d)) :
    ¬FailsForDepth (entriesHold settings entries v depth) := by
  rcases Value.mapping_or_primitive hv with ⟨fields, rfl⟩ | hprim
  · rw [entriesHold, allFieldsHold_eq]
    refine not_failsForDepth_all fun e he => hf e he _ _ ?_
    -- a field has no more sequences than the mapping, and its condition has a level less
    have hlevels := Value.fieldLevels_lt_of_mem_entries he
    have hsequences := Value.sequenceDepth_get_le fields e.1
    omega
  · rw [entriesHold_of_not_mapping (Value.isObject_eq_false_iff.1 hprim).1, allOperatorsHold_eq]
    refine not_failsForDepth_all fun e he => applyOperator_not_failsForDepth hprim ?_
    have hlevels := Value.fieldLevels_lt_of_mem_entries he
    omega

theorem holds_not_failsForDepth_of_primitive (hc : c.isObject = false)
    (h : depth + v.sequenceDepth ≤ settings.maxDepth) : ¬FailsForDepth (holds settings c v depth) := by
  rw [holds_of_primitive hc]
  refine broadcast_not_failsForDepth (Int.le_refl _) (fun l d hl _ => ?_) h
  cases hm : l.isMapping with
  | true => exact not_failsForDepth_ok
  | false =>
    have hprim := Value.isObject_eq_false_iff.2 ⟨hm, hl⟩
    exact not_failsForDepth_of_primitives fun f hf => (primitiveEqual_eq_error hprim hf).ofPrimitives

theorem holds_and_fieldHolds_not_failsForDepth (c : Value) :
    (∀ v (d : Int), d + v.sequenceDepth + c.levels ≤ settings.maxDepth →
      ¬FailsForDepth (holds settings c v d)) ∧
    ∀ v (d : Int), d + v.sequenceDepth + c.fieldLevels ≤ settings.maxDepth →
      ¬FailsForDepth (fieldHolds settings c v d) := by
  -- together, since alternatives for a field stand on one level with the field and those for a value do not
  induction c using Value.nested_induction with
  | primitive c hc =>
    refine ⟨fun v d h => holds_not_failsForDepth_of_primitive hc (by omega), fun v d h => ?_⟩
    rw [fieldHolds_of_leaf (Value.isObject_eq_false_iff.1 hc).2]
    exact holds_not_failsForDepth_of_primitive hc (by omega)
  | sequence c items hi ih =>
    constructor
    · intro v d h
      rw [holds_of_items? hi]
      have hroom : (settings.maxDepth : Int) - c.levels ≤ settings.maxDepth := by omega
      refine broadcast_not_failsForDepth hroom (fun l d' _ hl => ?_) (by omega)
      rw [anyHolds_eq]
      refine not_failsForDepth_any fun a ha => (ih a ha).1 l (d' + 1) ?_
      have hlevels := Value.levels_lt_of_mem_items hi ha
      omega
    · intro v d h
      rw [fieldHolds_of_items? hi, anyHolds_eq]
      refine not_failsForDepth_any fun a ha => (ih a ha).1 v d ?_
      have hlevels := Value.levels_le_of_mem_alternatives hi ha
      omega
  | mapping entries ih =>
    have hh : ∀ v (d : Int), d + v.sequenceDepth + (Value.mapping entries).levels ≤ settings.maxDepth →
        ¬FailsForDepth (holds settings (.mapping entries) v d) := by
      intro v d h
      rw [holds_mapping]
      have hroom : (settings.maxDepth : Int) - (Value.mapping entries).levels ≤ settings.maxDepth := by
        omega
      refine broadcast_not_failsForDepth hroom (fun l d' hl hd => ?_) (by omega)
      exact entriesHold_not_failsForDepth hl (by omega) fun e he => (ih e he).2.2
    exact ⟨hh, hh⟩

theorem holds_not_failsForDepth (h : depth + v.sequenceDepth + c.levels ≤ settings.maxDepth) :
    ¬FailsForDepth (holds settings c v depth) :=
  (holds_and_fieldHolds_not_failsForDepth c).1 v depth h

end Matching

/-- A limit that has room for the height of the value and that of the condition is enough. The height of the
condition is enough if there is no sequence in the value; of both only sequences in the value and levels of the
condition matter. -/
theorem holds_without_depth_failure (settings : Settings) (v c : Value) (depth : Int) :
    (depth + v.height + c.height ≤ settings.maxDepth → ¬FailsForDepth (holds settings c v depth)) ∧
    ((∀ key x, Part v key x → x.isSequence = false) → depth + c.height ≤ settings.maxDepth →
      ¬FailsForDepth (holds settings c v depth)) ∧
    (depth + v.sequenceDepth + c.levels ≤ settings.maxDepth → ¬FailsForDepth (holds settings c v depth)) := by
  have hlevels := c.levels_le_height
  refine ⟨fun h => holds_not_failsForDepth ?_, fun hnone h => holds_not_failsForDepth ?_,
    holds_not_failsForDepth⟩
  · have hsequences := v.sequenceDepth_le_height
    omega
  · rw [Value.sequenceDepth_eq_zero_iff.2 hnone]
    omega

/-- A limit of three has room for one more sequence than two at the depth of one, for three mappings, and for
alternatives under each of their keys; a limit of two has no room for the mappings. -/
theorem holds_without_depth_failure_at_limit :
    let two : Settings := ⟨2, false, by decide⟩
    let three : Settings := ⟨3, false, by decide⟩
    let lists : Value := .list [.tuple [.int 1]]
    let field (v : Value) : Value := .mapping [(.text "a", v)]
    let nested : Value := field (field (field (.int 1)))
    let choices : Value := field (.list [field (.list [field (.tuple [.int 1])])])
    (1 + (lists.height : Int) + ((Value.int 1).height : Int) ≤ three.maxDepth ∧
      ¬FailsForDepth (holds three (.int 1) lists 1)) ∧
    ((∀ key x, Part nested key x → x.isSequence = false) ∧ 0 + (nested.height : Int) ≤ three.maxDepth ∧
      ¬FailsForDepth (holds three nested nested 0) ∧ FailsForDepth (holds two nested nested 0)) ∧
    (0 + (nested.sequenceDepth : Int) + (choices.levels : Int) ≤ three.maxDepth ∧ choices.height = 6 ∧
      ¬FailsForDepth (holds three choices nested 0)) := by
  intro two three lists field nested choices
  have hlists : 1 + (lists.height : Int) + ((Value.int 1).height : Int) ≤ three.maxDepth := by decide
  have hnone : ∀ key x, Part nested key x → x.isSequence = false := Value.sequenceDepth_eq_zero_iff.1 rfl
  have hnested : 0 + (nested.height : Int) ≤ three.maxDepth := by decide
  have hchoices : 0 + (nested.sequenceDepth : Int) + (choices.levels : Int) ≤ three.maxDepth := by decide
  have hdeep : holds two nested nested 0 = .error (tooDeep two) := by decide +kernel
  refine ⟨⟨hlists, ?_⟩, ⟨hnone, hnested, ?_, ⟨_, hdeep, _, rfl, rfl⟩⟩, hchoices, rfl, ?_⟩
  · exact (holds_without_depth_failure three lists (.int 1) 1).1 hlists
  · exact (holds_without_depth_failure three nested nested 0).2.1 hnone hnested
  · exact (holds_without_depth_failure three nested choices 0).2.2 hchoices

end Criteria
