import Criteria.Proofs.Eligibility
import Criteria.Proofs.Showing
import Mathlib.Data.List.Forall2

namespace Criteria
variable {settings : Settings} {record criteria : Value} {c : Criterion} {cs : List Criterion}
  {outcomes : List Outcome} {f : Fault}

/-- The outcome that is reported for an entry. -/
def Reports (settings : Settings) (record : Value) (c : Criterion) (o : Outcome) : Prop :=
  ∃ found matched, evaluate settings record c = .ok (found, matched) ∧
    o = Outcome.of c.1 found matched

/-- The fault of the first entry that comes to no verdict. -/
inductive FirstFault (settings : Settings) (record : Value) : List Criterion → Fault → Prop where
  | here {c : Criterion} {cs : List Criterion} {f : Fault} :
    evaluate settings record c = .error f → FirstFault settings record (c :: cs) f
  | later {c : Criterion} {cs : List Criterion} {f : Fault} {b : Bool} :
    Yields settings record c b → FirstFault settings record cs f →
      FirstFault settings record (c :: cs) f

theorem reports_or_firstFault (settings : Settings) (record : Value) (cs : List Criterion) :
    (∃ outcomes, List.Forall₂ (Reports settings record) cs outcomes) ∨
      ∃ f, FirstFault settings record cs f := by
  induction cs with
  | nil => exact .inl ⟨[], .nil⟩
  | cons c cs ih =>
    cases he : evaluate settings record c with
    | error f => exact .inr ⟨f, .here he⟩
    | ok r =>
      rcases ih with ⟨outcomes, ho⟩ | ⟨f, hf⟩
      · exact .inl ⟨Outcome.of c.1 r.1 r.2 :: outcomes, .cons ⟨r.1, r.2, he, rfl⟩ ho⟩
      · exact .inr ⟨f, .later ⟨r.1, he⟩ hf⟩

theorem outcomesFrom_of_reports (h : List.Forall₂ (Reports settings record) cs outcomes) :
    (outcomesFrom settings record cs).outcome = .ok outcomes := by
  induction h with
  | nil => rfl
  | cons hr _ ih =>
    obtain ⟨found, matched, he, ho⟩ := hr
    rw [outcomesFrom, he, ho]
    exact congrArg (Except.map _) ih

theorem exists_reports_of_mem (h : List.Forall₂ (Reports settings record) cs outcomes) {o : Outcome}
    (ho : o ∈ outcomes) : ∃ c ∈ cs, Reports settings record c o := by
  induction h with
  | nil => exact nomatch ho
  | cons hr _ ih =>
    rcases List.mem_cons.1 ho with rfl | ho
    · exact ⟨_, List.mem_cons_self, hr⟩
    · obtain ⟨c, hc, hr⟩ := ih ho
      exact ⟨c, List.mem_cons_of_mem _ hc, hr⟩

theorem outcomesFrom_of_firstFault (h : FirstFault settings record cs f) :
    (outcomesFrom settings record cs).outcome = .error f := by
  induction h with
  | here he => rw [outcomesFrom, he]
  | later hy _ ih =>
    obtain ⟨found, he⟩ := hy
    rw [outcomesFrom, he]
    exact congrArg (Except.map _) ih

theorem FirstFault.of_append {before : List Criterion} (h : FirstFault settings record (before ++ cs) f)
    (hb : ∀ c ∈ before, ∃ b, Yields settings record c b) : FirstFault settings record cs f := by
  induction before with
  | nil => exact h
  | cons c before ih =>
    rw [List.forall_mem_cons] at hb
    obtain ⟨⟨b, found, hc⟩, hb⟩ := hb
    cases h with
    | here he => rw [hc] at he; exact nomatch he
    | later _ h => exact ih h hb

theorem FirstFault.append {before : List Criterion} (hb : ∀ c ∈ before, Yields settings record c true)
    (h : FirstFault settings record cs f) : FirstFault settings record (before ++ cs) f := by
  induction before with
  | nil => exact h
  | cons c before ih =>
    rw [List.forall_mem_cons] at hb
    exact .later hb.1 (ih hb.2)

theorem FirstFault.exists_evaluate (h : FirstFault settings record cs f) :
    ∃ c ∈ cs, evaluate settings record c = .error f := by
  induction h with
  | here he => exact ⟨_, List.mem_cons_self, he⟩
  | later _ _ ih =>
    obtain ⟨c, hc, he⟩ := ih
    exact ⟨c, List.mem_cons_of_mem _ hc, he⟩

theorem failedPathsOf_isEmpty_iff :
    (Explanation.failedPathsOf outcomes).isEmpty = true ↔ ∀ o ∈ outcomes, o.matched = true := by
  unfold Explanation.failedPathsOf
  simp

theorem matched_iff_of_reports (h : List.Forall₂ (Reports settings record) cs outcomes) :
    (∀ o ∈ outcomes, o.matched = true) ↔ ∀ c ∈ cs, Yields settings record c true := by
  induction h with
  | nil => simp
  | @cons c o cs outcomes hr _ ih =>
    obtain ⟨found, matched, he, ho⟩ := hr
    have hc : o.matched = true ↔ Yields settings record c true := by
      rw [ho]
      refine ⟨?_, ?_⟩
      · intro hm
        exact ⟨found, he.trans (by rw [show matched = true from hm])⟩
      · intro ⟨found', he'⟩
        rw [he] at he'
        cases he'
        rfl
    rw [List.forall_mem_cons, List.forall_mem_cons, ih, hc]

/-- Every value that a path of the criteria leads to has a text. -/
def Presentable (settings : Settings) (record criteria : Value) : Prop :=
  ∀ cs, checkedCriteria record criteria = .ok cs → ∀ c ∈ cs, ∀ found,
    record.resolve settings.maxDepth c.1 = .ok found → ∃ text, found.rendered.display = .ok text

theorem tooLongIn_of_resolve {path : Text} {found : Value}
    (hr : record.resolve settings.maxDepth path = .ok found) (h : found.rendered.display = .error f) :
    TooLongIn record f := by
  apply (Value.display_eq_error h).mono
  rw [Value.numbers_rendered, Value.resolve_eq hr]
  exact Value.numbers_along_subset record (segments path)

theorem presentable_of_short (h : ∀ n ∈ record.integers, IsShort n) :
    Presentable settings record criteria := by
  intro cs _ c _ found hr
  cases hd : found.rendered.display with
  | ok text => exact ⟨text, rfl⟩
  | error f =>
    obtain ⟨-, n, hn, hs⟩ := tooLongIn_of_resolve hr hd
    exact absurd (h n hn) hs

theorem ofOutcomes_of_reports (h : List.Forall₂ (Reports settings record) cs outcomes)
    (hc : checkedCriteria record criteria = .ok cs) (hp : Presentable settings record criteria) :
    ∃ e, Explanation.ofOutcomes outcomes = .ok e ∧
      (e.eligible = true ↔ ∀ c ∈ cs, Yields settings record c true) := by
  cases ht : Explanation.textOf outcomes with
  | ok text =>
    refine ⟨⟨outcomes, text⟩, by rw [Explanation.ofOutcomes, ht]; rfl, ?_⟩
    exact failedPathsOf_isEmpty_iff.trans (matched_iff_of_reports h)
  | error f =>
    -- the value without a text is one that a path of the criteria leads to
    obtain ⟨o, ho, hd⟩ := textOf_eq_error ht
    obtain ⟨c, hcs, found, matched, he, hr⟩ := exists_reports_of_mem h ho
    obtain ⟨text, ht⟩ := hp cs hc c hcs found (evaluate_eq_ok he).1
    rw [hr] at hd
    exact nomatch ht.symm.trans hd

/-- A check stops at the entry `c`: those before it are satisfied and it is not. -/
def StopsAt (settings : Settings) (record : Value) (cs before : List Criterion) (c : Criterion)
    (after : List Criterion) : Prop :=
  cs = before ++ c :: after ∧ (∀ d ∈ before, Yields settings record d true) ∧
    Yields settings record c false

theorem isEligible_of_checked (hc : checkedCriteria record criteria = .ok cs) :
    (isEligible settings record criteria).outcome = (eligibleFrom settings record cs).outcome := by
  rw [isEligible, hc]

theorem explain_of_reports (h : List.Forall₂ (Reports settings record) cs outcomes)
    (hc : checkedCriteria record criteria = .ok cs) (hp : Presentable settings record criteria) :
    ∃ e, (explain settings record criteria).outcome = .ok e ∧
      (e.eligible = true ↔ ∀ c ∈ cs, Yields settings record c true) := by
  obtain ⟨e, he, hiff⟩ := ofOutcomes_of_reports h hc hp
  refine ⟨e, ?_, hiff⟩
  simp only [explain, hc, outcomesFrom_of_reports h]
  exact he

theorem explain_of_firstFault (h : FirstFault settings record cs f)
    (hc : checkedCriteria record criteria = .ok cs) :
    (explain settings record criteria).outcome = .error f := by
  simp only [explain, hc, outcomesFrom_of_firstFault h]
  rfl

theorem explain_eq_ok {e : Explanation} (h : (explain settings record criteria).outcome = .ok e) :
    ∃ cs, checkedCriteria record criteria = .ok cs ∧
      List.Forall₂ (Reports settings record) cs e.outcomes := by
  cases hc : checkedCriteria record criteria with
  | error f =>
    rw [explain, hc] at h
    exact nomatch h
  | ok cs =>
    rcases reports_or_firstFault settings record cs with ⟨outcomes, hr⟩ | ⟨f, hf⟩
    · simp only [explain, hc, outcomesFrom_of_reports hr] at h
      obtain ⟨text, -, rfl⟩ := map_eq_ok h
      exact ⟨cs, rfl, hr⟩
    · rw [explain_of_firstFault hf hc] at h
      exact nomatch h

theorem explain_eq_error (hc : checkedCriteria record criteria = .ok cs)
    (h : (explain settings record criteria).outcome = .error f) :
    (∃ c ∈ cs, evaluate settings record c = .error f) ∨ TooLongIn record f := by
  rcases reports_or_firstFault settings record cs with ⟨outcomes, hr⟩ | ⟨g, hg⟩
  · simp only [explain, hc, outcomesFrom_of_reports hr] at h
    obtain ⟨o, ho, hd⟩ := textOf_eq_error (map_eq_error h)
    obtain ⟨c, -, found, matched, he, rfl⟩ := exists_reports_of_mem hr ho
    exact .inr (tooLongIn_of_resolve (evaluate_eq_ok he).1 hd)
  · rw [explain_of_firstFault hg hc] at h
    cases h
    exact .inl hg.exists_evaluate

/-- Whatever an evaluation ends with, if not with an answer, comes from one of the entries, or from an integer
that an explanation would have to show. -/
theorem exists_evaluate_of_error (hc : checkedCriteria record criteria = .ok cs)
    (h : (isEligible settings record criteria).outcome = .error f ∨
      (explain settings record criteria).outcome = .error f) :
    (∃ c ∈ cs, evaluate settings record c = .error f) ∨ TooLongIn record f := by
  rcases h with h | h
  · rw [isEligible_of_checked hc] at h
    exact .inl (eligibleFrom_eq_error h)
  · exact explain_eq_error hc h

/-- The three ways in which verdict and explanation end together. -/
theorem isEligible_explain_cases (hp : Presentable settings record criteria) :
    ((isEligible settings record criteria).outcome = .ok true ∧
      ∃ e, (explain settings record criteria).outcome = .ok e ∧ e.eligible = true) ∨
    ((isEligible settings record criteria).outcome = .ok false ∧
      ∃ cs before c after, checkedCriteria record criteria = .ok cs ∧
        StopsAt settings record cs before c after ∧
        ((∃ e, (explain settings record criteria).outcome = .ok e ∧ e.eligible = false) ∨
          ∃ f, (explain settings record criteria).outcome = .error f ∧
            FirstFault settings record after f)) ∨
    ∃ f, (isEligible settings record criteria).outcome = .error f ∧
      (explain settings record criteria).outcome = .error f := by
  cases hc : checkedCriteria record criteria with
  | error f => exact .inr (.inr ⟨f, by rw [isEligible, hc]; rfl, by rw [explain, hc]; rfl⟩)
  | ok cs =>
    rw [isEligible_of_checked hc]
    rcases eligibleFrom_cases settings record cs with ⟨ho, hall⟩ | ⟨before, c, after, hcs, hb, hstop⟩
    · -- all entries are satisfied, so none of them can be a fault
      rcases reports_or_firstFault settings record cs with ⟨outcomes, hr⟩ | ⟨f, hf⟩
      · obtain ⟨e, he, hiff⟩ := explain_of_reports hr hc hp
        exact .inl ⟨ho, e, he, hiff.2 hall⟩
      · rw [← List.append_nil cs] at hf
        exact nomatch hf.of_append fun c hc => ⟨true, hall c hc⟩
    · rcases hstop with ⟨ho, hfail⟩ | ⟨f, ho, he⟩
      · refine .inr (.inl ⟨ho, cs, before, c, after, rfl, ⟨hcs, hb, hfail⟩, ?_⟩)
        rcases reports_or_firstFault settings record cs with ⟨outcomes, hr⟩ | ⟨f, hf⟩
        · obtain ⟨e, he, hiff⟩ := explain_of_reports hr hc hp
          refine .inl ⟨e, he, Bool.eq_false_iff.2 fun h => ?_⟩
          exact Bool.noConfusion (hfail.unique (hiff.1 h c (by simp [hcs])))
        · -- the entries up to the one that fails have verdicts, so the fault lies behind it
          refine .inr ⟨f, explain_of_firstFault hf hc, ?_⟩
          rw [hcs, List.append_cons] at hf
          apply hf.of_append
          intro d hd
          rcases List.mem_append.1 hd with hd | hd
          · exact ⟨true, hb d hd⟩
          · exact ⟨false, List.mem_singleton.1 hd ▸ hfail⟩
      · refine .inr (.inr ⟨f, ho, explain_of_firstFault ?_ hc⟩)
        rw [hcs]
        exact .append hb (.here he)

/-- Verdict and explanation agree up to the entry at which the verdict stops; provided that what paths lead
to has a text, for which it is enough that no integer in the record is too long. -/
theorem explain_agrees_isEligible (settings : Settings) (record criteria : Value) :
    ((∀ n ∈ record.integers, digitCount n.natAbs ≤ Numeral.digitLimit) →
      Presentable settings record criteria) ∧
    (Presentable settings record criteria →
      ((isEligible settings record criteria).outcome = .ok true ↔
        ∃ e, (explain settings record criteria).outcome = .ok e ∧ e.eligible = true) ∧
      (∀ f, (isEligible settings record criteria).outcome = .error f →
        (explain settings record criteria).outcome = .error f) ∧
      (∀ e, (explain settings record criteria).outcome = .ok e →
        (isEligible settings record criteria).outcome = .ok e.eligible) ∧
      ((isEligible settings record criteria).outcome = .ok false →
        ∃ cs before c after, checkedCriteria record criteria = .ok cs ∧
          StopsAt settings record cs before c after ∧
          ((∃ e, (explain settings record criteria).outcome = .ok e ∧ e.eligible = false) ∨
            ∃ f, (explain settings record criteria).outcome = .error f ∧
              FirstFault settings record after f)) ∧
      ∀ f, (explain settings record criteria).outcome = .error f →
        (isEligible settings record criteria).outcome = .error f ∨
          (isEligible settings record criteria).outcome = .ok false) := by
  refine ⟨fun h => presentable_of_short h, fun hp => ?_⟩
  rcases isEligible_explain_cases hp with
    ⟨hi, e, he, ht⟩ | ⟨hi, cs, before, c, after, hc, hs, hend⟩ | ⟨f, hi, he⟩
  · simp [hi, he, ht]
  · rcases hend with ⟨e, he, ht⟩ | ⟨f, he, hf⟩
    · refine ⟨by simp [hi, he, ht], by simp [hi], by simp [hi, he, ht], fun _ => ?_, by simp [he]⟩
      exact ⟨cs, before, c, after, hc, hs, .inl ⟨e, he, ht⟩⟩
    · refine ⟨by simp [hi, he], by simp [hi], by simp [he], fun _ => ?_, by simp [hi]⟩
      exact ⟨cs, before, c, after, hc, hs, .inr ⟨f, he, hf⟩⟩
  · simp [hi, he]

/-- The entry that fails hides one behind it that comes to no verdict, which an explanation does not pass. -/
theorem explain_agrees_isEligible_hidden_fault :
    let record : Value := .mapping [(.text "a", .int 1), (.text "b", .int 2), (.text "c", .int 4)]
    let criteria : Value := .mapping [(.text "a", .int 1), (.text "b", .int 3),
      (.text "c", .mapping [(.text "foo", .int 1)])]
    (∀ n ∈ record.integers, digitCount n.natAbs ≤ Numeral.digitLimit) ∧
      (isEligible .default record criteria).outcome = .ok false ∧
      ∃ cs before c after f, StopsAt .default record cs before c after ∧
        (explain .default record criteria).outcome = .error f ∧
        FirstFault .default record after f := by
  intro record criteria
  have hshort : ∀ n ∈ record.integers, digitCount n.natAbs ≤ Numeral.digitLimit := by
    decide +kernel
  have hfalse : (isEligible .default record criteria).outcome = .ok false := by decide +kernel
  have hnone : (explain .default record criteria).outcome.toOption.isNone = true := by
    decide +kernel
  obtain ⟨hp, h⟩ := explain_agrees_isEligible .default record criteria
  obtain ⟨-, -, -, hstop, -⟩ := h (hp hshort)
  obtain ⟨cs, before, c, after, -, hs, hend⟩ := hstop hfalse
  rcases hend with ⟨e, he, -⟩ | ⟨f, he, hf⟩
  · rw [he] at hnone
    exact nomatch hnone
  · exact ⟨hshort, hfalse, cs, before, c, after, f, hs, he, hf⟩

end Criteria
