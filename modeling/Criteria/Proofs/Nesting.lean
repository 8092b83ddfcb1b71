import Criteria.Proofs.Eligibility

namespace Criteria
variable {settings : Settings} {v l c key : Value} {path : List Text} {name : Text} {depth : Int}
  {fields : List (Value × Value)}

/-- Conditions on fields within each other, one for each name, around a condition. -/
def nest (path : List Text) (c : Value) : Value :=
  path.foldr (fun name c => .mapping [(.text name, c)]) c

@[simp] theorem nest_cons : nest (name :: path) c = .mapping [(.text name, nest path c)] := rfl

theorem allFieldsHold_singleton :
    allFieldsHold settings [(key, c)] fields depth =
      fieldHolds settings c (Entries.get fields key) depth := by
  simp

theorem allOperatorsHold_singleton :
    allOperatorsHold settings [(key, c)] v depth = applyOperator settings key c v depth := by
  rw [allOperatorsHold]
  exact Verdict.and_true _

theorem yields_of_isEligible_singleton {p : Text} {b : Bool}
    (h : (isEligible settings (.mapping fields) (.mapping [(.text p, c)])).outcome = .ok b) :
    Yields settings (.mapping fields) (p, c) b := by
  have ho : (eligibleFrom settings (.mapping fields) [(p, c)]).outcome = .ok b := h
  rcases eligibleFrom_eq_ok ho with ⟨hb, hall⟩ | ⟨hb, d, hd, hy⟩
  · rw [hb]
    exact hall (p, c) (List.mem_singleton.2 rfl)
  · rw [hb, ← List.mem_singleton.1 hd]
    exact hy

theorem isEligible_singleton_iff {P : Prop} {p : Text} {b : Bool}
    (hP : ∀ found, (Value.mapping fields).resolve settings.maxDepth p = .ok found →
      (holds settings c found 0).Decides P)
    (h : (isEligible settings (.mapping fields) (.mapping [(.text p, c)])).outcome = .ok b) :
    b = true ↔ P := by
  obtain ⟨found, he⟩ := yields_of_isEligible_singleton h
  obtain ⟨hr, hh⟩ := evaluate_eq_ok he
  exact (hP found hr).truth b hh

theorem satisfies_along_iff :
    Satisfies settings (v.along path) c ↔ ∃ l ∈ v.leaves, Satisfies settings (l.along path) c := by
  have hleaf : ∀ l : Value, Satisfies settings (l.along path) c ↔
      ∃ m ∈ (l.along path).leaves, Satisfies settings m c := fun l => satisfies_iff_leaf
  rw [hleaf, Value.leaves_along]
  simp only [hleaf, List.mem_flatMap]
  refine ⟨?_, ?_⟩
  · intro ⟨m, ⟨l, hl, hm⟩, hs⟩
    exact ⟨l, hl, m, hm, hs⟩
  · intro ⟨l, hl, m, hm, hs⟩
    exact ⟨m, ⟨l, hl, hm⟩, hs⟩

/-- One step on a leaf. What is no mapping takes the name for an operator, of which there is none, and
so comes to no verdict. -/
theorem entriesHold_field_decides (hl : l.items? = none) (hop : Operator.named? name = none)
    (h : ∀ v d, (fieldHolds settings (nest path c) v d).Decides (Satisfies settings (v.along path) c)) :
    (entriesHold settings [(.text name, nest path c)] l depth).Decides
      (Satisfies settings (l.along (name :: path)) c) := by
  rcases Value.mapping_or_primitive hl with ⟨fields, rfl⟩ | hprim
  · show (allFieldsHold settings [(.text name, nest path c)] fields (depth + 1)).Decides _
    rw [allFieldsHold_singleton, Value.along_cons_of_leaf hl]
    exact h (Entries.get fields (.text name)) (depth + 1)
  · have hk : Operator.ofKey? (.text name) = none := hop
    have hm := (Value.isObject_eq_false_iff.1 hprim).1
    rw [entriesHold_of_not_mapping hm, allOperatorsHold_singleton, applyOperator_unknown hk]
    apply Verdict.Tells.withinDepth trivial
    exact unknownOperator_tells (fun f _ => trivial) fun t _ => trivial

/-- Matching against conditions within each other goes the way that the path goes. -/
theorem holds_nest_decides (hop : ∀ t ∈ path, Operator.named? t = none) :
    (∀ v d, (holds settings (nest path c) v d).Decides (Satisfies settings (v.along path) c)) ∧
      ∀ v d, (fieldHolds settings (nest path c) v d).Decides (Satisfies settings (v.along path) c) := by
  induction path with
  | nil =>
    exact ⟨fun v d => (holds_tells settings c v d).decides,
      fun v d => (fieldHolds_tells settings c v d).decides⟩
  | cons name path ih =>
    rw [List.forall_mem_cons] at hop
    -- a mapping is no sequence, so on a field it is the same condition as on a value
    have hh : ∀ v d, (holds settings (nest (name :: path) c) v d).Decides
        (Satisfies settings (v.along (name :: path)) c) := by
      intro v d
      rw [nest_cons, holds_mapping]
      refine (broadcast_tells trivial fun l hl d => ?_).congr satisfies_along_iff.symm
      exact entriesHold_field_decides (Value.items?_of_mem_leaves hl) hop.1 (ih hop.2).2
    exact ⟨hh, hh⟩

/-- A dotted path beside a condition and the same names one within the other come to the same verdict,
provided that none of the names but the first could be read as an operator. -/
theorem isEligible_dotted_eq_nested (settings : Settings) (fields : List (Value × Value)) (c : Value)
    (name : Text) (path : List Text) (hdot : ∀ t ∈ name :: path, .char '.' ∉ t)
    (hop : ∀ t ∈ path, Operator.named? t = none) (dotted nested : Bool)
    (hd : (isEligible settings (.mapping fields)
      (.mapping [(.text (Text.join "." (name :: path)), c)])).outcome = .ok dotted)
    (hn : (isEligible settings (.mapping fields)
      (.mapping [(.text name, nest path c)])).outcome = .ok nested) : dotted = nested := by
  rw [Bool.eq_iff_iff]
  have hdotted : dotted = true ↔
      Satisfies settings ((Value.mapping fields).along (name :: path)) c := by
    apply isEligible_singleton_iff _ hd
    intro found hr
    have hf := Value.resolve_eq hr
    rw [segments_join (List.cons_ne_nil name path) hdot] at hf
    rw [hf]
    exact (holds_tells settings c _ 0).decides
  have hnested : nested = true ↔
      Satisfies settings ((Value.mapping fields).along (name :: path)) c := by
    apply isEligible_singleton_iff _ hn
    intro found hr
    have hs : segments (Text.join "." [name]) = [name] :=
      segments_join (List.cons_ne_nil name []) fun t ht => hdot t (by simp_all)
    rw [Text.join_singleton] at hs
    have hf := Value.resolve_eq hr
    rw [hs] at hf
    rw [hf]
    exact (holds_nest_decides hop).1 _ 0
  exact hdotted.trans hnested.symm

/-- Lists within lists along the path. The last item has no such field and would come to no verdict. -/
theorem isEligible_dotted_eq_nested_items :
    let fields : List (Value × Value) := [(.text "a", .list
      [.list [.mapping [(.text "b", .mapping [(.text "c", .null)])]],
        .mapping [(.text "b", .tuple [.mapping [(.text "c", .list [.int 0, .int 5])]])],
        .mapping []])]
    let c : Value := .mapping [(.text "gte", .int 3)]
    ∃ dotted nested, (isEligible .default (.mapping fields)
        (.mapping [(.text (Text.join "." ["a", "b", "c"]), c)])).outcome = .ok dotted ∧
      (isEligible .default (.mapping fields)
        (.mapping [(.text "a", nest ["b", "c"] c)])).outcome = .ok nested ∧ dotted = nested := by
  intro fields c
  have hdot : ∀ t ∈ (["a", "b", "c"] : List Text), CodePoint.char '.' ∉ t := by decide +kernel
  have hop : ∀ t ∈ (["b", "c"] : List Text), Operator.named? t = none := by decide +kernel
  have hd : (isEligible .default (.mapping fields)
      (.mapping [(.text (Text.join "." ["a", "b", "c"]), c)])).outcome = .ok true := by
    decide +kernel
  have hn : (isEligible .default (.mapping fields)
      (.mapping [(.text "a", nest ["b", "c"] c)])).outcome = .ok true := by
    decide +kernel
  have heq := isEligible_dotted_eq_nested .default fields c "a" ["b", "c"] hdot hop true true hd hn
  exact ⟨true, true, hd, hn, heq⟩

end Criteria
