import Criteria.Proofs.Levels
import Criteria.Proofs.Nesting

namespace Criteria

/-- Two verdicts are the same, faults included, if neither of them is missing for depth. -/
def AgreeButDepth (r r' : Verdict) : Prop := ¬FailsForDepth r → ¬FailsForDepth r' → r = r'

theorem FailsForDepth.or {r : Verdict} (h : FailsForDepth r) (s : Verdict) : FailsForDepth (r.or s) := by
  obtain ⟨f, rfl, hf⟩ := h
  exact ⟨f, rfl, hf⟩

theorem FailsForDepth.and {r : Verdict} (h : FailsForDepth r) (s : Verdict) : FailsForDepth (r.and s) := by
  obtain ⟨f, rfl, hf⟩ := h
  exact ⟨f, rfl, hf⟩

namespace AgreeButDepth
variable {settings : Settings} {depth depth' : Int} {r r' s s' : Verdict}

theorem refl (r : Verdict) : AgreeButDepth r r := fun _ _ => rfl

theorem withinDepth_left (h : AgreeButDepth r r') : AgreeButDepth (withinDepth settings depth r) r' := by
  intro hr hr'
  rcases withinDepth_eq settings depth r with hd | hd
  · exact absurd ⟨_, hd, _, rfl, rfl⟩ hr
  · rw [hd] at hr ⊢
    exact h hr hr'

theorem withinDepth_right (h : AgreeButDepth r r') : AgreeButDepth r (withinDepth settings depth r') :=
  fun hr hr' => (withinDepth_left (fun h₁ h₂ => (h h₂ h₁).symm) hr' hr).symm

theorem withinDepth (h : AgreeButDepth r r') :
    AgreeButDepth (withinDepth settings depth r) (Criteria.withinDepth settings depth' r') :=
  h.withinDepth_right.withinDepth_left

theorem or (hr : AgreeButDepth r r') (hs : AgreeButDepth s s') : AgreeButDepth (r.or s) (r'.or s') := by
  intro h h'
  -- a verdict missing for depth in front leaves the whole missing
  obtain rfl : r = r' := hr (mt (FailsForDepth.or · s) h) (mt (FailsForDepth.or · s') h')
  rcases r with f | _ | _
  · rfl
  · exact hs h h'
  · rfl

theorem and (hr : AgreeButDepth r r') (hs : AgreeButDepth s s') : AgreeButDepth (r.and s) (r'.and s') := by
  intro h h'
  obtain rfl : r = r' := hr (mt (FailsForDepth.and · s) h) (mt (FailsForDepth.and · s') h')
  rcases r with f | _ | _
  · rfl
  · rfl
  · exact hs h h'

section Searches
variable {α : Type} {f g : α → Verdict} {xs : List α}

theorem any (h : ∀ x ∈ xs, AgreeButDepth (f x) (g x)) :
    AgreeButDepth (Verdict.any (xs.map f)) (Verdict.any (xs.map g)) := by
  induction xs with
  | nil => exact refl _
  | cons x xs ih =>
    rw [List.forall_mem_cons] at h
    exact h.1.or (ih h.2)

theorem all (h : ∀ x ∈ xs, AgreeButDepth (f x) (g x)) :
    AgreeButDepth (Verdict.all (xs.map f)) (Verdict.all (xs.map g)) := by
  induction xs with
  | nil => exact refl _
  | cons x xs ih =>
    rw [List.forall_mem_cons] at h
    exact h.1.and (ih h.2)

theorem joined {j : Junction} (h : ∀ x ∈ xs, AgreeButDepth (f x) (g x)) :
    AgreeButDepth (Verdict.joined j (xs.map f)) (Verdict.joined j (xs.map g)) := by
  cases j with
  | all => exact all h
  | any => exact any h

end Searches

theorem broadcast {v : Value} {test test' : Value → Int → Verdict}
    (h : ∀ l ∈ v.leaves, ∀ d, AgreeButDepth (test l d) (test' l d)) :
    AgreeButDepth (broadcast settings test depth v) (Criteria.broadcast settings test' depth v) := by
  induction v using Value.sequence_induction generalizing depth with
  | leaf v hv =>
    rw [broadcast_of_leaf hv, broadcast_of_leaf hv]
    rw [Value.leaves_of_leaf hv, List.forall_mem_singleton] at h
    exact (h depth).withinDepth
  | sequence v items hv ih =>
    rw [broadcast_of_items? hv, broadcast_of_items? hv, broadcastItems_eq, broadcastItems_eq]
    rw [Value.leaves_of_items? hv] at h
    exact (any fun x hx => ih x hx fun l hl => h l (List.mem_flatMap.2 ⟨x, hx, hl⟩)).withinDepth

end AgreeButDepth

section Primitives
variable {settings : Settings} {v key operand : Value} {j : Junction} {depth depth' : Int}
  {entries : List (Value × Value)} {items : List Value}

theorem applyOperator_agree (hv : v.isObject = false) (hle : depth' ≤ depth) :
    AgreeButDepth (applyOperator settings key operand v depth) (applyOperator settings key operand v depth') := by
  intro h _
  have hroom := headroom_of_le (Eq.refl settings.coerce) (Nat.le_refl settings.maxDepth) hle
  have halike : EndAlike Fault.IsDepth Eq (applyOperator settings key operand v depth)
      (applyOperator settings key operand v depth') := applyOperator_alike unseen_eq hv (Eq.refl v) hroom
  exact (halike.failsForDepth_or_eq fun _ _ hb => hb).resolve_left h

theorem junctionHolds_agree (hv : v.isObject = false) (hle : depth' ≤ depth) :
    AgreeButDepth (junctionHolds settings j entries v depth) (junctionHolds settings j entries v depth') :=
  .joined fun _ _ => applyOperator_agree hv hle

theorem entriesHold_singleton (hv : v.isObject = false) :
    entriesHold settings [(key, operand)] v depth = applyOperator settings key operand v (depth + 1) := by
  rw [entriesHold_of_not_mapping (Value.isObject_eq_false_iff.1 hv).1, allOperatorsHold_singleton]

theorem entriesHold_eq_junctionHolds (hv : v.isObject = false) :
    entriesHold settings entries v depth = junctionHolds settings .all entries v (depth + 1) := by
  rw [entriesHold_of_not_mapping (Value.isObject_eq_false_iff.1 hv).1, allOperatorsHold_eq]
  rfl

/-- A junction goes one level deeper than the operators under it. -/
theorem entriesHold_junction_agree (hv : v.isObject = false) (hk : Operator.ofKey? key = some (.junction j)) :
    AgreeButDepth (entriesHold settings [(key, .mapping entries)] v depth)
      (junctionHolds settings j entries v (depth + 1)) := by
  rw [entriesHold_singleton hv, applyOperator_junction hk]
  exact (junctionHolds_agree hv (by omega)).withinDepth_left

/-- Alternatives of one operator each are what a disjunction joins. -/
theorem anyHolds_singletons_agree (hv : v.isObject = false) :
    AgreeButDepth (junctionHolds settings .any entries v (depth + 1))
      (anyHolds settings (entries.map fun e => .mapping [e]) v depth) := by
  rw [anyHolds_eq, List.map_map]
  refine .any fun e _ => ?_
  rw [Function.comp_apply, holds_mapping, broadcast_of_leaf (Value.isObject_eq_false_iff.1 hv).2,
    entriesHold_singleton hv]
  exact (AgreeButDepth.refl _).withinDepth_right

/-- A membership in a list of primitive values and alternatives of them ask for the same equalities. -/
theorem anyHolds_items_agree (hv : v.isObject = false) (hi : ∀ c ∈ items, c.isObject = false) :
    AgreeButDepth (anyItem (primitiveEqual settings v) items) (anyHolds settings items v depth) := by
  obtain ⟨hmapping, hleaf⟩ := Value.isObject_eq_false_iff.1 hv
  rw [anyItem_eq, anyHolds_eq]
  refine .any fun c hc => ?_
  rw [holds_of_primitive (hi c hc), broadcast_of_leaf hleaf, hmapping]
  exact (AgreeButDepth.refl _).withinDepth_right

end Primitives

/-- On a value without mappings a conjunction is the mapping of its operators, a disjunction the list of the mappings
of one operator each, and a membership the list itself: the verdict is the same and so is the fault, unless one of the
forms goes beyond the depth limit. -/
theorem operator_forms_agree (settings : Settings) (v : Value) (depth : Int)
    (hv : ∀ l ∈ v.leaves, l.isMapping = false) :
    (∀ entries, AgreeButDepth (holds settings (.mapping [(.text "and", .mapping entries)]) v depth)
      (holds settings (.mapping entries) v depth)) ∧
    (∀ entries, AgreeButDepth (holds settings (.mapping [(.text "or", .mapping entries)]) v depth)
      (holds settings (.list (entries.map fun e => .mapping [e])) v depth)) ∧
    ∀ candidates items, candidates.items? = some items → (∀ c ∈ items, c.isObject = false) →
      AgreeButDepth (holds settings (.mapping [(.text "in", candidates)]) v depth)
        (holds settings candidates v depth) := by
  have hprim : ∀ l ∈ v.leaves, l.isObject = false := fun l hl =>
    Value.isObject_eq_false_iff.2 ⟨hv l hl, Value.items?_of_mem_leaves hl⟩
  refine ⟨fun entries => ?_, fun entries => ?_, fun candidates items hitems hi => ?_⟩
  · have hand : Operator.ofKey? (.text "and") = some (.junction .all) := rfl
    rw [holds_mapping, holds_mapping]
    refine .broadcast fun l hl d => ?_
    have hplain : entriesHold settings entries l d = _ := entriesHold_eq_junctionHolds (hprim l hl)
    rw [hplain]
    exact entriesHold_junction_agree (hprim l hl) hand
  · have hor : Operator.ofKey? (.text "or") = some (.junction .any) := rfl
    rw [holds_mapping, holds_of_items? rfl]
    refine .broadcast fun l hl d => ?_
    -- on either side the operators are applied two levels below the leaf
    rw [entriesHold_singleton (hprim l hl), applyOperator_junction hor]
    exact (anyHolds_singletons_agree (hprim l hl)).withinDepth_left
  · have hin : Operator.ofKey? (.text "in") = some .membership := rfl
    rw [holds_mapping, holds_of_items? hitems]
    refine .broadcast fun l hl d => ?_
    rw [entriesHold_singleton (hprim l hl), applyOperator_membership hin, hitems, Option.getD_some]
    exact (anyHolds_items_agree (hprim l hl) hi).withinDepth_left

/-- Seven in two lists. A conjunction meets the same unknown key as the operators by themselves, a disjunction is
left at the same operator in front of it, and a membership finds the text behind a decimal that is undefined. -/
theorem operator_forms_agree_in_lists :
    let lists : Value := .list [.tuple [.int 7], .text "x"]
    let unknown : Value × Value := (.text "near", .int 1)
    let entries : List (Value × Value) := [(.text "gt", .int 5), unknown]
    let candidates : Value := .tuple [.number (.decimal (.nan false false 0)), .text "x"]
    (∀ l ∈ lists.leaves, l.isMapping = false) ∧
    (holds .default (.mapping [(.text "and", .mapping entries)]) lists 1 = .error (.refusal (.unknownOperator "near")) ∧
      holds .default (.mapping entries) lists 1 = .error (.refusal (.unknownOperator "near"))) ∧
    (holds .default (.mapping [(.text "or", .mapping entries)]) lists 1 = .ok true ∧
      holds .default (.list (entries.map fun e => .mapping [e])) lists 1 = .ok true) ∧
    holds .default (.mapping [(.text "in", candidates)]) lists 1 = .ok true ∧
    holds .default candidates lists 1 = .ok true := by
  intro lists unknown entries candidates
  have hv : ∀ l ∈ lists.leaves, l.isMapping = false := by decide
  obtain ⟨hand, hor, hin⟩ := operator_forms_agree .default lists 1 hv
  have hboth : holds .default (.mapping entries) lists 1 = .error (.refusal (.unknownOperator "near")) := by
    decide +kernel
  have heither : holds .default (.mapping [(.text "or", .mapping entries)]) lists 1 = .ok true := by decide +kernel
  have hmember : holds .default (.mapping [(.text "in", candidates)]) lists 1 = .ok true := by decide +kernel
  have hroom : ∀ c : Value, (1 : Int) + lists.sequenceDepth + c.levels ≤ Settings.default.maxDepth →
      ¬FailsForDepth (holds .default c lists 1) := fun c => holds_not_failsForDepth
  refine ⟨hv, ⟨?_, hboth⟩, ⟨heither, ?_⟩, hmember, ?_⟩
  · rw [hand entries (hroom _ (by decide)) (hroom _ (by decide)), hboth]
  · rw [← hor entries (hroom _ (by decide)) (hroom _ (by decide)), heither]
  · rw [← hin candidates _ rfl (by decide) (hroom _ (by decide)) (hroom _ (by decide)), hmember]

end Criteria
