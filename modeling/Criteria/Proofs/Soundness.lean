import Criteria.Document
import Criteria.Proofs.Explanation
import Criteria.Proofs.Shape

namespace Criteria
variable {settings : Settings} {record criteria c : Value} {r : Refusal} {name : Text}

/-- A key that names no operator, in a mapping that does not stand under a junction. -/
def StrayKey (c : Value) (name : Text) : Prop :=
  ∃ under entries, Part c under (.mapping entries) ∧
    (∀ key, under = some key → Shape.junction? key = none) ∧
    ∃ e ∈ entries, Operator.ofKey? e.1 = none ∧ e.1.display = .ok name

/-- The refusals that are left to an evaluation. -/
def RefusesOnlyStrayKeys (settings : Settings) (record criteria : Value) : Prop :=
  ∀ r, (isEligible settings record criteria).outcome = .error (.refusal r) ∨
      (explain settings record criteria).outcome = .error (.refusal r) →
    r.category ≠ .invalidCriteria ∧
    (r.category = .unsupportedOperation →
      ∃ entries, criteria = .mapping entries ∧
        ∃ e ∈ entries, ∃ name, r = .unknownOperator name ∧ StrayKey e.2 name)

/-- In a condition that is in order a key under a junction is the name of an operator. -/
theorem Shape.InOrder.not_under_junction (h : Shape.InOrder c) {under : Option Value}
    {entries : List (Value × Value)} (hp : Part c under (.mapping entries)) {e : Value × Value}
    (he : e ∈ entries) (hk : Operator.ofKey? e.1 = none) :
    ∀ key, under = some key → Shape.junction? key = none := by
  intro key hu
  rw [hu] at hp
  cases hj : Shape.junction? key with
  | none => rfl
  | some j =>
    obtain ⟨operators, ho, hall⟩ := h key _ hp j hj
    rw [← Value.mapping.inj ho] at hall
    have hs := hall e he
    rw [hk] at hs
    exact nomatch hs

theorem Shape.junction?_of_ofKey? {key : Value} {j : Junction}
    (h : Operator.ofKey? key = some (.junction j)) : junction? key = some j := by
  rw [junction?, h]

/-- The refusals that matching against a condition in order may end with. -/
theorem FaultIn.refusal_of_inOrder (h : Shape.InOrder c) (hf : FaultIn settings c (.refusal r)) :
    r.category = .depth ∨ ∃ name, r = .unknownOperator name ∧ StrayKey c name := by
  cases hf with
  | tooDeep => exact .inl rfl
  | primitive hp =>
    -- what primitives end with is a breakdown
    exact nomatch hp
  | unknownOperator hp he hk hd =>
    exact .inr ⟨_, rfl, _, _, hp, h.not_under_junction hp he hk, _, he, hk, hd⟩
  | operandNotMapping hp hk hm =>
    obtain ⟨entries, ho, -⟩ := h _ _ hp _ (Shape.junction?_of_ofKey? hk)
    rw [ho] at hm
    exact nomatch hm

theorem refusesOnlyStrayKeys_of_check (hr : record.isMapping = true)
    (h : Shape.check criteria = .ok none) : RefusesOnlyStrayKeys settings record criteria := by
  obtain ⟨fields, rfl⟩ := Value.isMapping_iff.1 hr
  obtain ⟨entries, rfl, hall⟩ := Shape.check_eq_none h
  obtain ⟨cs, hcs⟩ := criteriaOfEntries_of_text fun e he => (hall e he).imp fun _ => And.left
  have hc : checkedCriteria (.mapping fields) (.mapping entries) = .ok cs := hcs
  have hmap := criteriaOfEntries_eq_ok hcs
  intro r hout
  have hfailed : ∃ c ∈ cs, evaluate settings (.mapping fields) c = .error (.refusal r) := by
    rcases exists_evaluate_of_error hc hout with he | hlong
    · exact he
    · -- an explanation may end for want of a text as well, but that is no refusal
      exact nomatch hlong.1
  obtain ⟨c, hmem, he⟩ := hfailed
  have hentry : (Value.text c.1, c.2) ∈ entries := by
    rw [hmap]
    exact List.mem_map.2 ⟨c, hmem, rfl⟩
  have hcause : r.category = .depth ∨ ∃ name, r = .unknownOperator name ∧ StrayKey c.2 name := by
    rcases evaluate_eq_error he with ⟨segment, hs⟩ | hf
    · cases hs
      exact .inl rfl
    · obtain ⟨_, -, hin⟩ := hall _ hentry
      exact hf.inCondition.refusal_of_inOrder hin
  rcases hcause with hd | ⟨name, hn, hs⟩
  · rw [hd]
    exact ⟨by decide, fun hu => nomatch hu⟩
  · refine ⟨by simp [hn, Refusal.category], fun _ => ?_⟩
    exact ⟨entries, rfl, (.text c.1, c.2), hentry, name, hn, hs⟩

theorem Document.isMapping_of_decode {role : Role} {path : Text} {parseDates : Bool}
    {bytes : List UInt8} {v : Value} (h : decode role path parseDates bytes = .ok v) :
    v.isMapping = true := by
  unfold decode at h
  split at h
  · exact nomatch h
  · obtain ⟨w, -, h⟩ := bind_eq_ok h
    split at h
    · next hm =>
      cases h
      exact hm
    · exact nomatch h

theorem Document.check_of_checkShape {path : Text} {v : Value}
    (h : checkShape path criteria = .ok v) : v = criteria ∧ Shape.check criteria = .ok none := by
  unfold checkShape at h
  obtain ⟨problem, hp, h⟩ := bind_eq_ok h
  cases problem with
  | none => exact ⟨(Except.ok.inj h).symm, hp⟩
  | some problem => exact nomatch h

theorem Document.load_eq_ok {files : Files} {role : Role} {path : FilePath} {parseDates : Bool}
    {v : Value} (h : load files role path parseDates = .ok v) :
    v.isMapping = true ∧ (role = .criteria → Shape.check v = .ok none) := by
  unfold load at h
  split at h
  · exact nomatch h
  · exact nomatch h
  · obtain ⟨w, hw, h⟩ := bind_eq_ok h
    have hm := isMapping_of_decode hw
    cases role with
    | record =>
      cases h
      exact ⟨hm, fun hr => nomatch hr⟩
    | criteria =>
      obtain ⟨hv, hs⟩ := check_of_checkShape h
      rw [hv]
      exact ⟨hm, fun _ => hs⟩

/-- An evaluation of criteria that pass the check, such as all that a file can be loaded as, refuses them
for nothing but their depth and keys that may be the names of fields. -/
theorem checked_criteria_refuse_only_stray_keys (settings : Settings) :
    (∀ record criteria, record.isMapping = true → Shape.check criteria = .ok none →
      RefusesOnlyStrayKeys settings record criteria) ∧
    ∀ files recordPath criteriaPath parseRecordDates parseCriteriaDates record criteria,
      Document.load files .record recordPath parseRecordDates = .ok record →
      Document.load files .criteria criteriaPath parseCriteriaDates = .ok criteria →
      RefusesOnlyStrayKeys settings record criteria := by
  refine ⟨fun _ _ => refusesOnlyStrayKeys_of_check, ?_⟩
  intro files recordPath criteriaPath parseRecordDates parseCriteriaDates record criteria hr hc
  have hmapping := (Document.load_eq_ok hr).1
  have hshape := (Document.load_eq_ok hc).2 rfl
  exact refusesOnlyStrayKeys_of_check hmapping hshape

/-- The same key in values and in files: the check passes, the record has no mapping under `a`, and so `b`
is taken for an operator. -/
theorem checked_criteria_refuse_only_stray_keys_file :
    let record : Value := .mapping [(.text "a", .int 1)]
    let condition : Value := .mapping [(.text "b", .int 1)]
    let criteria : Value := .mapping [(.text "a", condition)]
    let files : Files := fun path =>
      if path.steps = [("r" : Text)] then .file "\x7b\"a\":1\x7d".toUTF8.toList
      else .file "\x7b\"a\":\x7b\"b\":1\x7d\x7d".toUTF8.toList
    ((isEligible .default record criteria).outcome = .error (.refusal (.unknownOperator "b")) ∧
      StrayKey condition "b") ∧
    ∃ loadedRecord loadedCriteria,
      Document.load files .record ⟨[], ["r"]⟩ false = .ok loadedRecord ∧
      Document.load files .criteria ⟨[], ["c"]⟩ true = .ok loadedCriteria ∧
      RefusesOnlyStrayKeys .default loadedRecord loadedCriteria := by
  intro record condition criteria files
  obtain ⟨hvalues, hfiles⟩ := checked_criteria_refuse_only_stray_keys .default
  have hcheck : Shape.check criteria = .ok none := by decide +kernel
  have hout : (isEligible .default record criteria).outcome =
      .error (.refusal (.unknownOperator "b")) := by decide +kernel
  obtain ⟨entries, he, e, hmem, name, hn, hstray⟩ :=
    (hvalues record criteria rfl hcheck _ (.inl hout)).2 rfl
  rw [← Value.mapping.inj he, List.mem_singleton] at hmem
  rw [hmem, ← Refusal.unknownOperator.inj hn] at hstray
  have hr : (Document.load files .record ⟨[], ["r"]⟩ false).toOption.isSome = true := by
    decide +kernel
  have hc : (Document.load files .criteria ⟨[], ["c"]⟩ true).toOption.isSome = true := by
    decide +kernel
  obtain ⟨loadedRecord, hr⟩ := exists_eq_ok hr
  obtain ⟨loadedCriteria, hc⟩ := exists_eq_ok hc
  exact ⟨⟨hout, hstray⟩, loadedRecord, loadedCriteria, hr, hc,
    hfiles files _ _ _ _ loadedRecord loadedCriteria hr hc⟩

end Criteria
