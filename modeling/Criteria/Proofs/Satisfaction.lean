import Criteria.Proofs.Matching
import Criteria.Proofs.Parts
import Criteria.Proofs.Showing

namespace Criteria

mutual

/-- A value satisfies a condition if one of its leaves satisfies one of the condition's leaves. -/
inductive Satisfies (settings : Settings) : Value → Value → Prop where
  | leaf {v c l a : Value} :
    l ∈ v.leaves → a ∈ c.leaves → LeafSatisfies settings l a → Satisfies settings v c

/-- Leaves are equal, or the condition is a mapping whose entries are conditions on the fields of a
mapping and operators on any other leaf. -/
inductive LeafSatisfies (settings : Settings) : Value → Value → Prop where
  | equal {l a : Value} :
    l.isMapping = false → a.isMapping = false → primitiveEqual settings l a = .ok true →
      LeafSatisfies settings l a
  | fields {fields entries : List (Value × Value)} :
    (∀ e ∈ entries, Satisfies settings (Entries.get fields e.1) e.2) →
      LeafSatisfies settings (.mapping fields) (.mapping entries)
  | operators {l : Value} {entries : List (Value × Value)} :
    l.isMapping = false → (∀ e ∈ entries, OperatorHolds settings e.1 l e.2) →
      LeafSatisfies settings l (.mapping entries)

/-- The operator that a key names holds between a leaf and an operand. No other key holds, and neither
does a junction of what is no mapping. -/
inductive OperatorHolds (settings : Settings) : Value → Value → Value → Prop where
  | relation {key l operand : Value} {r : Relation} :
    Operator.ofKey? key = some (.relation r) → related settings r l operand = .ok true →
      OperatorHolds settings key l operand
  | membership {key l operand candidate : Value} {candidates : List Value} :
    Operator.ofKey? key = some .membership → operand.items? = some candidates →
      candidate ∈ candidates → primitiveEqual settings l candidate = .ok true →
      OperatorHolds settings key l operand
  | all {key l : Value} {entries : List (Value × Value)} :
    Operator.ofKey? key = some (.junction .all) →
      (∀ e ∈ entries, OperatorHolds settings e.1 l e.2) →
      OperatorHolds settings key l (.mapping entries)
  | any {key l : Value} {entries : List (Value × Value)} {e : Value × Value} :
    Operator.ofKey? key = some (.junction .any) → e ∈ entries → OperatorHolds settings e.1 l e.2 →
      OperatorHolds settings key l (.mapping entries)

end

variable {settings : Settings} {v c l key operand : Value} {entries : List (Value × Value)}

theorem satisfies_iff_leaf : Satisfies settings v c ↔ ∃ l ∈ v.leaves, Satisfies settings l c := by
  constructor
  · intro ⟨hl, ha, h⟩
    have hleaf := Value.leaves_of_leaf (Value.items?_of_mem_leaves hl)
    exact ⟨_, hl, .leaf (by simp [hleaf]) ha h⟩
  · intro ⟨l, hl, ⟨hl', ha, h⟩⟩
    rw [Value.leaves_of_leaf (Value.items?_of_mem_leaves hl), List.mem_singleton] at hl'
    rw [hl'] at h
    exact .leaf hl ha h

theorem satisfies_iff_item {items : List Value} (h : c.items? = some items) :
    Satisfies settings v c ↔ ∃ a ∈ items, Satisfies settings v a := by
  constructor
  · intro ⟨hl, ha, hs⟩
    rw [Value.leaves_of_items? h, List.mem_flatMap] at ha
    obtain ⟨x, hx, ha⟩ := ha
    exact ⟨x, hx, .leaf hl ha hs⟩
  · intro ⟨x, hx, ⟨hl, ha, hs⟩⟩
    apply Satisfies.leaf hl _ hs
    rw [Value.leaves_of_items? h, List.mem_flatMap]
    exact ⟨x, hx, ha⟩

theorem satisfies_leaf (hl : l.items? = none) (hc : c.items? = none) :
    Satisfies settings l c ↔ LeafSatisfies settings l c := by
  constructor
  · intro ⟨hl', hc', h⟩
    rw [Value.leaves_of_leaf hl, List.mem_singleton] at hl'
    rw [Value.leaves_of_leaf hc, List.mem_singleton] at hc'
    rwa [hl', hc'] at h
  · intro h
    exact .leaf (by simp [Value.leaves_of_leaf hl]) (by simp [Value.leaves_of_leaf hc]) h

theorem leafSatisfies_primitive (hc : c.isMapping = false) :
    LeafSatisfies settings l c ↔ l.isMapping = false ∧ primitiveEqual settings l c = .ok true := by
  constructor
  · intro h
    cases h with
    | equal hl _ h => exact ⟨hl, h⟩
    | fields => exact nomatch hc
    | operators => exact nomatch hc
  · intro ⟨hl, h⟩
    exact .equal hl hc h

theorem leafSatisfies_mapping {fields : List (Value × Value)} :
    LeafSatisfies settings (.mapping fields) (.mapping entries) ↔
      ∀ e ∈ entries, Satisfies settings (Entries.get fields e.1) e.2 := by
  constructor
  · intro h
    cases h with
    | equal hl => exact nomatch hl
    | fields h => exact h
    | operators hl => exact nomatch hl
  · exact .fields

theorem leafSatisfies_operators (hl : l.isMapping = false) :
    LeafSatisfies settings l (.mapping entries) ↔
      ∀ e ∈ entries, OperatorHolds settings e.1 l e.2 := by
  constructor
  · intro h
    cases h with
    | equal _ hc => exact nomatch hc
    | fields => exact nomatch hl
    | operators _ h => exact h
  · exact .operators hl

theorem operatorHolds_relation {r : Relation} (h : Operator.ofKey? key = some (.relation r)) :
    OperatorHolds settings key l operand ↔ related settings r l operand = .ok true := by
  constructor
  · intro ho
    cases ho <;> simp_all
  · exact .relation h

theorem operatorHolds_membership (h : Operator.ofKey? key = some .membership) :
    OperatorHolds settings key l operand ↔
      ∃ x ∈ operand.items?.getD [], primitiveEqual settings l x = .ok true := by
  constructor
  · intro ho
    cases ho with
    | membership _ hi hx he => exact ⟨_, by simpa [hi] using hx, he⟩
    | _ => simp_all
  · intro ⟨x, hx, he⟩
    cases hi : operand.items? with
    | none => simp [hi] at hx
    | some items => exact .membership h hi (by simpa [hi] using hx) he

theorem operatorHolds_all (h : Operator.ofKey? key = some (.junction .all)) :
    OperatorHolds settings key l (.mapping entries) ↔
      ∀ e ∈ entries, OperatorHolds settings e.1 l e.2 := by
  constructor
  · intro ho
    cases ho <;> simp_all
  · exact .all h

theorem operatorHolds_any (h : Operator.ofKey? key = some (.junction .any)) :
    OperatorHolds settings key l (.mapping entries) ↔
      ∃ e ∈ entries, OperatorHolds settings e.1 l e.2 := by
  constructor
  · intro ho
    cases ho with
    | any _ he ho => exact ⟨_, he, ho⟩
    | _ => simp_all
  · intro ⟨e, he, ho⟩
    exact .any h he ho

section Matching
variable {root whole : Value} {under : Option Value} {depth : Int}

theorem unknownOperator_tells {E : Fault → Prop} {P : Prop} (hf : ∀ f, key.display = .error f → E f)
    (hn : ∀ name, key.display = .ok name → E (.refusal (.unknownOperator name))) :
    (unknownOperator key).Tells P E := by
  unfold unknownOperator
  cases hd : key.display with
  | error f => exact .error (hf f hd)
  | ok name => exact .error (hn name hd)

theorem applyOperator_tells_of (hl : l.isObject = false) (hv : l.numbers ⊆ whole.numbers)
    (hp : Part root under (.mapping entries)) (he : (key, operand) ∈ entries)
    (h : ∀ inner, operand = .mapping inner → ∀ e ∈ inner, ∀ d,
      (applyOperator settings e.1 e.2 l d).Tells (OperatorHolds settings e.1 l e.2)
        (MatchingFault settings whole root)) :
    (applyOperator settings key operand l depth).Tells (OperatorHolds settings key l operand)
      (MatchingFault settings whole root) := by
  have hdeep : MatchingFault settings whole root (tooDeep settings) := .ofRefusal .tooDeep
  cases hk : Operator.ofKey? key with
  | none =>
    rw [applyOperator_unknown hk]
    apply Verdict.Tells.withinDepth hdeep
    refine unknownOperator_tells (fun f hf => ?_) fun name hd => .ofRefusal (.unknownOperator hp he hk hd)
    have hkey : key.numbers ⊆ root.numbers :=
      List.Subset.trans (Value.numbers_subset_of_mem_entries he).1 hp.numbers_subset
    exact .ofNumbers (.of_tooLongIn (.inr ((Value.display_eq_error hf).mono hkey)))
  | some op =>
    cases op with
    | relation r =>
      rw [applyOperator_relation hk]
      have ht : (related settings r l operand).Tells _ (MatchingFault settings whole root) :=
        .of_faults fun f hf => .ofNumbers ((related_eq_error hf).mono hv (hp.entry he).numbers_subset)
      exact (ht.withinDepth hdeep).congr (operatorHolds_relation hk).symm
    | membership =>
      rw [applyOperator_membership hk, anyItem_eq]
      have hpart : ∀ x ∈ operand.items?.getD [], Part root none x := by
        cases hi : operand.items? with
        | none => simp
        | some items => exact fun x hx => (hp.entry he).item hi hx
      have ht : ∀ x ∈ operand.items?.getD [], (primitiveEqual settings l x).Tells
          (primitiveEqual settings l x = .ok true) (MatchingFault settings whole root) :=
        fun x hx => .of_faults fun f hf =>
          .ofNumbers ((primitiveEqual_eq_error hl hf).mono hv (hpart x hx).numbers_subset)
      exact ((Verdict.Tells.any ht).withinDepth hdeep).congr (operatorHolds_membership hk).symm
    | junction j =>
      -- only here does the operand hold operators, which the caller answers for
      by_cases hm : operand.isMapping
      · obtain ⟨inner, rfl⟩ := Value.isMapping_iff.1 hm
        cases j with
        | all =>
          rw [applyOperator_all hk, allOperatorsHold_eq]
          have ht := Verdict.Tells.all fun e he => h inner rfl e he (depth + 1)
          exact (ht.withinDepth hdeep).congr (operatorHolds_all hk).symm
        | any =>
          rw [applyOperator_any hk, anyOperatorHolds_eq]
          have ht := Verdict.Tells.any fun e he => h inner rfl e he (depth + 1)
          exact (ht.withinDepth hdeep).congr (operatorHolds_any hk).symm
      · rw [Bool.not_eq_true] at hm
        rw [applyOperator_of_not_mapping hk hm]
        have hfault : MatchingFault settings whole root (.refusal (.operandNotMapping j)) :=
          .ofRefusal (.operandNotMapping (.entry hp he) hk hm)
        exact (Verdict.Tells.error hfault).withinDepth hdeep

theorem applyOperator_tells (hl : l.isObject = false) (hv : l.numbers ⊆ whole.numbers)
    (hp : Part root under (.mapping entries)) (he : (key, operand) ∈ entries) :
    (applyOperator settings key operand l depth).Tells (OperatorHolds settings key l operand)
      (MatchingFault settings whole root) := by
  -- only a mapping has operators of its own, and those stand in another mapping than the key did
  induction operand using Value.mapping_induction generalizing key depth under entries with
  | step operand ih =>
    apply applyOperator_tells_of hl hv hp he
    rintro inner rfl e hin d
    exact ih inner rfl e hin (.entry hp he) hin

theorem entriesHold_tells (hp : Part root under (.mapping entries)) (hl : l.items? = none)
    (hv : l.numbers ⊆ whole.numbers)
    (h : ∀ e ∈ entries, ∀ v d, v.numbers ⊆ whole.numbers →
      (fieldHolds settings e.2 v d).Tells (Satisfies settings v e.2) (MatchingFault settings whole root)) :
    (entriesHold settings entries l depth).Tells (Satisfies settings l (.mapping entries))
      (MatchingFault settings whole root) := by
  rcases Value.mapping_or_primitive hl with ⟨fields, rfl⟩ | hprim
  · have ht := Verdict.Tells.all fun e he => h e he (Entries.get fields e.1) (depth + 1)
      (List.Subset.trans (Value.numbers_get_subset fields e.1) hv)
    rw [entriesHold, allFieldsHold_eq]
    exact ht.congr (leafSatisfies_mapping.symm.trans (satisfies_leaf hl rfl).symm)
  · have hm := (Value.isObject_eq_false_iff.1 hprim).1
    rw [entriesHold_of_not_mapping hm, allOperatorsHold_eq]
    have ht : ∀ e ∈ entries, (applyOperator settings e.1 e.2 l (depth + 1)).Tells
        (OperatorHolds settings e.1 l e.2) (MatchingFault settings whole root) :=
      fun e he => applyOperator_tells hprim hv hp he
    exact (Verdict.Tells.all ht).congr ((leafSatisfies_operators hm).symm.trans (satisfies_leaf hl rfl).symm)

theorem holds_tells_primitive (hp : Part root under c) (hc : c.isObject = false)
    (hv : v.numbers ⊆ whole.numbers) :
    (holds settings c v depth).Tells (Satisfies settings v c) (MatchingFault settings whole root) := by
  obtain ⟨hm, hs⟩ := Value.isObject_eq_false_iff.1 hc
  rw [holds_of_primitive hc]
  refine (broadcast_tells (P := fun l => Satisfies settings l c) (.ofRefusal .tooDeep) ?_).congr
    satisfies_iff_leaf.symm
  intro l hl d
  have hleaf := Value.items?_of_mem_leaves hl
  have hiff : Satisfies settings l c ↔ l.isMapping = false ∧ primitiveEqual settings l c = .ok true :=
    (satisfies_leaf hleaf hs).trans (leafSatisfies_primitive hm)
  cases hlm : l.isMapping with
  | true => exact .ok (by simp [hiff, hlm])
  | false =>
    have ht : (primitiveEqual settings l c).Tells (primitiveEqual settings l c = .ok true)
        (MatchingFault settings whole root) := by
      refine .of_faults fun f hf => .ofNumbers ?_
      have hnumbers := primitiveEqual_eq_error (Value.isObject_eq_false_iff.2 ⟨hlm, hleaf⟩) hf
      exact hnumbers.mono (List.Subset.trans (Value.numbers_subset_of_mem_leaves hl) hv) hp.numbers_subset
    exact ht.congr (by simp [hiff, hlm])

/-- Conditions on values and conditions on fields, which differ in the depth of alternatives only. -/
theorem holds_and_fieldHolds_tell (hp : Part root under c) :
    (∀ v d, v.numbers ⊆ whole.numbers →
      (holds settings c v d).Tells (Satisfies settings v c) (MatchingFault settings whole root)) ∧
    ∀ v d, v.numbers ⊆ whole.numbers →
      (fieldHolds settings c v d).Tells (Satisfies settings v c) (MatchingFault settings whole root) := by
  have hdeep : MatchingFault settings whole root (tooDeep settings) := .ofRefusal .tooDeep
  induction c using Value.nested_induction generalizing under with
  | primitive c hprim =>
    refine ⟨fun v d hv => holds_tells_primitive hp hprim hv, fun v d hv => ?_⟩
    rw [fieldHolds_of_leaf (Value.isObject_eq_false_iff.1 hprim).2]
    exact holds_tells_primitive hp hprim hv
  | sequence c items hi ih =>
    have ha : ∀ v d, v.numbers ⊆ whole.numbers → (anyHolds settings items v d).Tells
        (∃ a ∈ items, Satisfies settings v a) (MatchingFault settings whole root) := by
      intro v d hv
      rw [anyHolds_eq]
      exact .any fun a ha => (ih a ha (.item hp hi ha)).1 v d hv
    constructor
    · -- on a value the alternatives stand one deeper than the sequence that holds them
      intro v d hv
      rw [holds_of_items? hi]
      refine (broadcast_tells hdeep fun l hl d =>
        ha l (d + 1) (List.Subset.trans (Value.numbers_subset_of_mem_leaves hl) hv)).congr ?_
      rw [satisfies_iff_leaf]
      simp only [satisfies_iff_item hi]
    · -- on a field they stand no deeper, and the sequences in the field are left to each of them
      intro v d hv
      rw [fieldHolds_of_items? hi]
      exact (ha v d hv).congr (satisfies_iff_item hi).symm
  | mapping entries ih =>
    have hh : ∀ v d, v.numbers ⊆ whole.numbers → (holds settings (.mapping entries) v d).Tells
        (Satisfies settings v (.mapping entries)) (MatchingFault settings whole root) := by
      intro v d hv
      rw [holds_mapping]
      refine (broadcast_tells hdeep fun l hl d => ?_).congr satisfies_iff_leaf.symm
      exact entriesHold_tells hp (Value.items?_of_mem_leaves hl)
        (List.Subset.trans (Value.numbers_subset_of_mem_leaves hl) hv)
        fun e he => ((ih e he).2 (.entry hp he)).2
    exact ⟨hh, hh⟩

end Matching

/-- Where matching comes to a verdict, it is whether the value satisfies the condition; where it does
not, the fault lies in the condition, or in numbers of the two. -/
theorem holds_tells (settings : Settings) (c v : Value) (depth : Int) :
    (holds settings c v depth).Tells (Satisfies settings v c) (MatchingFault settings v c) :=
  (holds_and_fieldHolds_tell .whole).1 v depth (List.Subset.refl _)

theorem fieldHolds_tells (settings : Settings) (c v : Value) (depth : Int) :
    (fieldHolds settings c v depth).Tells (Satisfies settings v c) (MatchingFault settings v c) :=
  (holds_and_fieldHolds_tell .whole).2 v depth (List.Subset.refl _)

end Criteria
