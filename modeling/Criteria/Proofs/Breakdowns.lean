import Criteria.Proofs.Explanation

namespace Criteria
variable {settings : Settings} {record criteria v c : Value} {cs : List Criterion} {f : Fault}

def announcedCategories : List Category := [.invalidCriteria, .unsupportedOperation, .depth]

def Fault.IsAnnounced (f : Fault) : Prop :=
  ∃ r, f = .refusal r ∧ r.category ∈ announcedCategories

theorem MatchingFault.announced_or_numbers (h : MatchingFault settings v c f) :
    f.IsAnnounced ∨ NumberFault v c f := by
  obtain ⟨hc, hn⟩ := h
  -- of the faults that lie in a condition only those of primitive values are no refusals
  cases hc with
  | tooDeep => exact .inl ⟨_, rfl, (by decide : Category.depth ∈ announcedCategories)⟩
  | primitive hp => exact .inr (hn hp)
  | unknownOperator =>
    exact .inl ⟨_, rfl, (by decide : Category.unsupportedOperation ∈ announcedCategories)⟩
  | operandNotMapping =>
    exact .inl ⟨_, rfl, (by decide : Category.invalidCriteria ∈ announcedCategories)⟩

theorem evaluate_announced_or_numbers {c : Criterion} (h : evaluate settings record c = .error f) :
    f.IsAnnounced ∨ NumberFault record c.2 f := by
  rcases evaluate_eq_error h with ⟨segment, rfl⟩ | hf
  · exact .inl ⟨_, rfl, (by decide : Category.depth ∈ announcedCategories)⟩
  · exact hf.announced_or_numbers

theorem numbers_subset_of_checked (hc : checkedCriteria record criteria = .ok cs) {c : Criterion}
    (hmem : c ∈ cs) : c.2.numbers ⊆ criteria.numbers := by
  rw [(checkedCriteria_eq_ok hc).2]
  have he : (Value.text c.1, c.2) ∈ cs.map fun c => (Value.text c.1, c.2) := List.mem_map_of_mem hmem
  exact (Value.numbers_subset_of_mem_entries he).2

/-- An evaluation of a mapping by criteria whose keys are texts ends with a result or a refusal that it
announces. The rest is down to numbers: one in the record that has no order with one in the criteria, or an
integer in either that has no text. -/
theorem evaluation_fails_as_announced_or_over_numbers (settings : Settings)
    (fields entries : List (Value × Value)) (hpaths : ∀ e ∈ entries, ∃ path, e.1 = .text path) (f : Fault)
    (h : (isEligible settings (.mapping fields) (.mapping entries)).outcome = .error f ∨
      (explain settings (.mapping fields) (.mapping entries)).outcome = .error f) :
    f.IsAnnounced ∨ NumberFault (.mapping fields) (.mapping entries) f := by
  obtain ⟨cs, hcs⟩ := criteriaOfEntries_of_text hpaths
  have hc : checkedCriteria (.mapping fields) (.mapping entries) = .ok cs := hcs
  -- the criteria pass the first check, so it was one of the entries, or the text of a value in the record
  rcases exists_evaluate_of_error hc h with ⟨c, hmem, he⟩ | hlong
  · rcases evaluate_announced_or_numbers he with hannounced | hnumbers
    · exact .inl hannounced
    · exact .inr (hnumbers.mono (List.Subset.refl _) (numbers_subset_of_checked hc hmem))
  · exact .inr (.of_tooLongIn (.inl hlong))

/-- A key that names no operator is refused, which is announced; a signaling decimal is a number to blame. -/
theorem evaluation_fails_as_announced_or_over_numbers_signaling :
    let fields : List (Value × Value) := [(.text "a", .number (.decimal (.nan false true 0)))]
    let near : List (Value × Value) := [(.text "a", .mapping [(.text "near", .int 1)])]
    let one : List (Value × Value) := [(.text "a", .int 1)]
    ((isEligible .default (.mapping fields) (.mapping near)).outcome =
        .error (.refusal (.unknownOperator "near")) ∧
      (Fault.refusal (.unknownOperator "near")).IsAnnounced) ∧
    (isEligible .default (.mapping fields) (.mapping one)).outcome =
        .error (.breakdown .invalidOperation) ∧
      NumberFault (.mapping fields) (.mapping one) (.breakdown .invalidOperation) := by
  intro fields near one
  have hpaths : ∀ c : Value, ∀ e ∈ [(Value.text "a", c)], ∃ path, e.1 = .text path :=
    fun c => List.forall_mem_singleton.2 ⟨"a", rfl⟩
  have hrefused : (isEligible .default (.mapping fields) (.mapping near)).outcome =
      .error (.refusal (.unknownOperator "near")) := by decide +kernel
  have hbroken : (isEligible .default (.mapping fields) (.mapping one)).outcome =
      .error (.breakdown .invalidOperation) := by decide +kernel
  refine ⟨⟨hrefused, ?_⟩, hbroken, ?_⟩
  · rcases evaluation_fails_as_announced_or_over_numbers .default fields near (hpaths _) _
      (.inl hrefused) with hannounced | hnumbers
    · exact hannounced
    · exact nomatch hnumbers
  · rcases evaluation_fails_as_announced_or_over_numbers .default fields one (hpaths _) _
      (.inl hbroken) with ⟨r, hr, -⟩ | hnumbers
    · exact nomatch hr
    · exact hnumbers

/-- An ordering with a decimal that is undefined, and a numeral beside an integer beyond the digit limit. What
these evaluations end with is not announced. -/
theorem evaluation_breaks_down_at_undefined_decimal :
    let undefinedPrice : List (Value × Value) := [(.text "price", .number (.decimal (.nan false false 0)))]
    let aboveOne : List (Value × Value) := [(.text "price", .mapping [(.text "gt", .int 1)])]
    let hugePrice : List (Value × Value) := [(.text "price", .int (.ofNat (Nat.pow 10 4300)))]
    let five : List (Value × Value) := [(.text "price", .text "5")]
    ((isEligible .default (.mapping undefinedPrice) (.mapping aboveOne)).outcome =
        .error (.breakdown .invalidOperation) ∧
      ¬(Fault.breakdown .invalidOperation).IsAnnounced) ∧
    (isEligible ⟨100, true, by decide⟩ (.mapping hugePrice) (.mapping five)).outcome =
        .error (.breakdown .integerTooLong) ∧
      ¬(Fault.breakdown .integerTooLong).IsAnnounced := by
  intro undefinedPrice aboveOne hugePrice five
  have hunannounced : ∀ b : Breakdown, ¬(Fault.breakdown b).IsAnnounced :=
    fun b ⟨r, hr, _⟩ => nomatch hr
  have hundefined : (isEligible .default (.mapping undefinedPrice) (.mapping aboveOne)).outcome =
      .error (.breakdown .invalidOperation) := by decide +kernel
  have hhuge : (isEligible ⟨100, true, by decide⟩ (.mapping hugePrice) (.mapping five)).outcome =
      .error (.breakdown .integerTooLong) := by decide +kernel
  exact ⟨⟨hundefined, hunannounced _⟩, hhuge, hunannounced _⟩

section Stops
variable {fields : List (Value × Value)} {path : Text}

/-- Wherever a path leads to a number, an ordering beside it with a number that has no order with it stops
evaluations. -/
theorem evaluate_of_orderInvalid {m n : Number} {key : Value} {r : Relation}
    (hk : Operator.ofKey? key = some (.relation r))
    (hr : record.resolve settings.maxDepth path = .ok (.number m)) (h : m.orderInvalid n = true) :
    evaluate settings record (path, .mapping [(key, .number n)]) =
      .error (.breakdown .invalidOperation) := by
  have hlimit := settings.inBounds.1
  have hrelated : related settings r (.number m) (.number n) = .error (.breakdown .invalidOperation) := by
    simp [related, order?, Value.epochMillis?, Value.kind, sameKindOrder?, h, Except.map]
  have happly : applyOperator settings key (.number n) (.number m) 1 =
      .error (.breakdown .invalidOperation) := by
    rw [applyOperator_relation hk, hrelated, withinDepth, if_neg (by omega)]
  have hholds : holds settings (.mapping [(key, .number n)]) (.number m) 0 =
      .error (.breakdown .invalidOperation) := by
    rw [holds_mapping, broadcast_of_leaf rfl, entriesHold_of_not_mapping rfl, withinDepth,
      if_neg (by omega)]
    -- the operator is the first of the mapping and also the last
    show (applyOperator settings key (.number n) (.number m) 1).and (.ok true) = _
    rw [happly]
    rfl
  calc evaluate settings record (path, .mapping [(key, .number n)])
    _ = (holds settings (.mapping [(key, .number n)]) (.number m) 0).map fun b => (.number m, b) :=
      evaluate_of_ok hr
    _ = .error (.breakdown .invalidOperation) := by
      rw [hholds]
      rfl

theorem isEligible_of_orderInvalid {m n : Number} {key : Value} {r : Relation}
    (hk : Operator.ofKey? key = some (.relation r))
    (hr : (Value.mapping fields).resolve settings.maxDepth path = .ok (.number m))
    (h : m.orderInvalid n = true) :
    (isEligible settings (.mapping fields)
      (.mapping [(.text path, .mapping [(key, .number n)])])).outcome =
        .error (.breakdown .invalidOperation) := by
  show (eligibleFrom settings (.mapping fields) [(path, .mapping [(key, .number n)])]).outcome = _
  rw [eligibleFrom, evaluate_of_orderInvalid hk hr h]
  rfl

/-- Wherever a path leads to an integer that has no text, no explanation can show it. -/
theorem explain_of_not_short {n : Int}
    (hr : (Value.mapping fields).resolve settings.maxDepth path = .ok (.int n)) (h : ¬IsShort n) :
    (explain settings (.mapping fields) (.mapping [(.text path, .null)])).outcome =
      .error (.breakdown .integerTooLong) := by
  have hlimit := settings.inBounds.1
  have hholds : holds settings .null (.int n) 0 = .ok false := by
    rw [holds_of_primitive rfl, broadcast_of_leaf rfl, withinDepth, if_neg (by omega)]
    rfl
  have hreports : Reports settings (.mapping fields) (path, .null) (Outcome.of path (.int n) false) := by
    refine ⟨.int n, false, ?_, rfl⟩
    calc evaluate settings (.mapping fields) (path, .null)
      _ = (holds settings .null (.int n) 0).map fun b => (.int n, b) := evaluate_of_ok hr
      _ = .ok (.int n, false) := by
        rw [hholds]
        rfl
  have htext : (Value.int n).display = .error (.breakdown .integerTooLong) := by
    show (integerText n).map Text.ofString = _
    unfold IsShort at h
    rw [integerText, if_pos (by omega)]
    rfl
  have hsummary : (Outcome.of path (.int n) false).summary = .error (.breakdown .integerTooLong) := by
    show (Value.int n).display.map _ = _
    rw [htext]
    rfl
  have houtcomes : (outcomesFrom settings (.mapping fields) [(path, .null)]).outcome =
      .ok [Outcome.of path (.int n) false] := outcomesFrom_of_reports (.cons hreports .nil)
  show (outcomesFrom settings (.mapping fields) [(path, .null)]).outcome.bind Explanation.ofOutcomes = _
  rw [houtcomes]
  show Explanation.ofOutcomes [Outcome.of path (.int n) false] = _
  rw [Explanation.ofOutcomes, Explanation.textOf, List.mapM_cons, hsummary]
  rfl

end Stops
end Criteria
