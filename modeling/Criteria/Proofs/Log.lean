import Criteria.Proofs.EntryByEntry

namespace Criteria
variable {settings : Settings} {record criteria : Value} {c : Criterion} {cs before : List Criterion}
  {log : List LogEntry} {f : Fault}

/-- What is logged of an entry that comes to a verdict. -/
def Logs (settings : Settings) (record : Value) (c : Criterion) (e : LogEntry) : Prop :=
  ∃ b, Yields settings record c b ∧ e = verdictEntry c.1 b

def satisfiedEntries (cs : List Criterion) : List LogEntry := cs.map fun c => verdictEntry c.1 true

theorem Logs.level {e : LogEntry} (h : Logs settings record c e) : e.level = .debug := by
  obtain ⟨b, -, rfl⟩ := h
  rfl

theorem level_of_logs (h : List.Forall₂ (Logs settings record) cs log) : ∀ e ∈ log, e.level = .debug := by
  induction h with
  | nil => exact fun _ he => nomatch he
  | cons hc _ ih => exact List.forall_mem_cons.2 ⟨hc.level, ih⟩

theorem logs_satisfiedEntries (h : ∀ c ∈ cs, Yields settings record c true) :
    List.Forall₂ (Logs settings record) cs (satisfiedEntries cs) :=
  List.forall₂_map_right_iff.2 (List.forall₂_same.2 fun c hc => ⟨true, h c hc, rfl⟩)

theorem exists_logs (h : ∀ c ∈ cs, ∃ o, Reports settings record c o) :
    ∃ log, List.Forall₂ (Logs settings record) cs log := by
  apply exists_forall₂_iff.2
  intro c hc
  obtain ⟨_, found, b, he, -⟩ := h c hc
  exact ⟨_, b, ⟨found, he⟩, rfl⟩

theorem reports_of_logs (h : List.Forall₂ (Logs settings record) cs log) :
    ∀ c ∈ cs, ∃ o, Reports settings record c o := by
  induction h with
  | nil => exact fun _ hc => nomatch hc
  | cons hc _ ih =>
    obtain ⟨b, ⟨found, he⟩, -⟩ := hc
    exact List.forall_mem_cons.2 ⟨⟨_, found, b, he, rfl⟩, ih⟩

theorem firstFault_of_logs (h : List.Forall₂ (Logs settings record) before log)
    (he : evaluate settings record c = .error f) (after : List Criterion) :
    FirstFault settings record (before ++ c :: after) f :=
  firstFault_iff.2 ⟨before, c, after, rfl, reports_of_logs h, .here he⟩

@[simp] theorem Run.after_ofOutcome {α : Type} (log : List LogEntry) (outcome : Except Fault α) :
    (Run.ofOutcome outcome).after log = ⟨log, outcome⟩ := congrArg (Run.mk · outcome) (List.append_nil log)

theorem eligibleFrom_append (h : ∀ c ∈ before, Yields settings record c true) :
    eligibleFrom settings record (before ++ cs) =
      (eligibleFrom settings record cs).after (satisfiedEntries before) := by
  induction before with
  | nil => rfl
  | cons c before ih =>
    rw [List.forall_mem_cons] at h
    obtain ⟨⟨found, he⟩, hb⟩ := h
    rw [List.cons_append, eligibleFrom, he, ih hb]
    rfl

/-- What a verdict comes to on these entries, and the log it leaves: the entries in front are satisfied, and the one
that it stops at is not, or comes to no verdict. -/
inductive VerdictLog (settings : Settings) (record : Value) :
    List Criterion → Except Fault Bool → List LogEntry → Prop where
  | eligible {cs : List Criterion} : (∀ c ∈ cs, Yields settings record c true) →
    VerdictLog settings record cs (.ok true) (satisfiedEntries cs)
  | failed {before : List Criterion} {c : Criterion} {after : List Criterion} :
    (∀ d ∈ before, Yields settings record d true) → Yields settings record c false →
    VerdictLog settings record (before ++ c :: after) (.ok false) (satisfiedEntries before ++ [verdictEntry c.1 false])
  | stopped {before : List Criterion} {c : Criterion} {after : List Criterion} {f : Fault} :
    (∀ d ∈ before, Yields settings record d true) → evaluate settings record c = .error f →
    VerdictLog settings record (before ++ c :: after) (.error f) (satisfiedEntries before)

theorem verdictLog_eligibleFrom (settings : Settings) (record : Value) (cs : List Criterion) :
    VerdictLog settings record cs (eligibleFrom settings record cs).outcome (eligibleFrom settings record cs).log := by
  rcases eligibleFrom_cases settings record cs with ⟨-, hall⟩ | ⟨before, c, after, rfl, hb, ⟨-, hc⟩ | ⟨f, -, he⟩⟩
  · rw [← List.append_nil cs, eligibleFrom_append hall, eligibleFrom, Run.after_ofOutcome, List.append_nil]
    exact .eligible hall
  · obtain ⟨found, he⟩ := id hc
    rw [eligibleFrom_append hb, eligibleFrom, he]
    exact .failed hb hc
  · rw [eligibleFrom_append hb, eligibleFrom, he]
    show VerdictLog settings record _ _ ((Run.ofOutcome (.error f)).after (satisfiedEntries before)).log
    rw [Run.after_ofOutcome]
    exact .stopped hb he

theorem log_outcomesFrom_append (h : List.Forall₂ (Logs settings record) before log) (cs : List Criterion) :
    (outcomesFrom settings record (before ++ cs)).log = log ++ (outcomesFrom settings record cs).log := by
  induction h with
  | nil => rfl
  | cons hc _ ih =>
    obtain ⟨b, ⟨found, he⟩, rfl⟩ := hc
    rw [List.cons_append, outcomesFrom, he]
    exact congrArg (_ :: ·) ih

theorem log_outcomesFrom_of_error (h : evaluate settings record c = .error f) (cs : List Criterion) :
    (outcomesFrom settings record (c :: cs)).log = faultEntries c.1 f := by
  rw [outcomesFrom, h]

/-- The log of an explanation on these entries: it tells of every entry up to the first that comes to no verdict, and
warns of that one if it is refused. -/
inductive ExplanationLog (settings : Settings) (record : Value) : List Criterion → List LogEntry → Prop where
  | complete {cs : List Criterion} {log : List LogEntry} : List.Forall₂ (Logs settings record) cs log →
    ExplanationLog settings record cs log
  | refused {before : List Criterion} {c : Criterion} {after : List Criterion} {log : List LogEntry} {r : Refusal} :
    List.Forall₂ (Logs settings record) before log → evaluate settings record c = .error (.refusal r) →
    ExplanationLog settings record (before ++ c :: after)
      (log ++ [⟨.warning, "Evaluation of criteria path " ++ Text.quoted c.1 ++ " failed: " ++ r.text⟩])
  | brokenDown {before : List Criterion} {c : Criterion} {after : List Criterion} {log : List LogEntry}
    {b : Breakdown} : List.Forall₂ (Logs settings record) before log →
    evaluate settings record c = .error (.breakdown b) → ExplanationLog settings record (before ++ c :: after) log

theorem explanationLog_outcomesFrom (settings : Settings) (record : Value) (cs : List Criterion) :
    ExplanationLog settings record cs (outcomesFrom settings record cs).log := by
  rcases reports_or_firstFault settings record cs with ⟨outcomes, hr⟩ | ⟨f, hf⟩
  · obtain ⟨log, hlog⟩ := exists_logs (exists_forall₂_iff.1 ⟨outcomes, hr⟩)
    have happend := log_outcomesFrom_append hlog []
    rw [List.append_nil, show (outcomesFrom settings record []).log = [] from rfl, List.append_nil] at happend
    rw [happend]
    exact .complete hlog
  · obtain ⟨before, c, after, rfl, hbefore, hc⟩ := firstFault_iff.1 hf
    obtain ⟨log, hlog⟩ := exists_logs hbefore
    have he : evaluate settings record c = .error f := by
      cases hc with
      | here he => exact he
      | later _ hnone => exact nomatch hnone
    rw [log_outcomesFrom_append hlog, log_outcomesFrom_of_error he]
    cases f with
    | refusal r => exact .refused hlog he
    | breakdown b => exact (List.append_nil log).symm ▸ .brokenDown hlog he

theorem ExplanationLog.warning_iff (h : ExplanationLog settings record cs log) :
    (∃ e ∈ log, e.level = .warning) ↔ ∃ r, FirstFault settings record cs (.refusal r) := by
  have hnone {cs' : List Criterion} {log' : List LogEntry} (hlog : List.Forall₂ (Logs settings record) cs' log') :
      ¬∃ e ∈ log', e.level = .warning := by
    rintro ⟨e, he, hw⟩
    exact nomatch (level_of_logs hlog e he).symm.trans hw
  cases h with
  | complete hlog =>
    refine iff_of_false (hnone hlog) ?_
    rintro ⟨r, hf⟩
    obtain ⟨outcomes, hr⟩ := exists_forall₂_iff.2 (reports_of_logs hlog)
    exact nomatch (outcomesFrom_of_reports hr).symm.trans (outcomesFrom_of_firstFault hf)
  | refused hlog he =>
    exact iff_of_true ⟨_, List.mem_append_right _ List.mem_cons_self, rfl⟩ ⟨_, firstFault_of_logs hlog he _⟩
  | @brokenDown before c after log b hlog he =>
    refine iff_of_false (hnone hlog) ?_
    rintro ⟨r, hf⟩
    have hbreakdown := outcomesFrom_of_firstFault (firstFault_of_logs hlog he after)
    exact nomatch hbreakdown.symm.trans (outcomesFrom_of_firstFault hf)

/-- A verdict has logged what the explanation starts with. -/
theorem VerdictLog.isPrefix {outcome : Except Fault Bool} (h : VerdictLog settings record cs outcome log) :
    log <+: (outcomesFrom settings record cs).log := by
  cases h with
  | eligible hall =>
    have happend := log_outcomesFrom_append (logs_satisfiedEntries hall) []
    rw [List.append_nil] at happend
    exact ⟨_, happend.symm⟩
  | @failed before c after hb hc =>
    -- the explanation tells of the entry that fails too, and goes on
    have hlogs : List.Forall₂ (Logs settings record) (before ++ [c])
        (satisfiedEntries before ++ [verdictEntry c.1 false]) :=
      List.rel_append (logs_satisfiedEntries hb) (.cons ⟨false, hc, rfl⟩ .nil)
    rw [List.append_cons before c after]
    exact ⟨_, (log_outcomesFrom_append hlogs after).symm⟩
  | stopped hb _ => exact ⟨_, (log_outcomesFrom_append (logs_satisfiedEntries hb) _).symm⟩

/-- Nothing is evaluated: the record or the criteria are no mapping, or a path is no text. -/
def Rejected (record criteria : Value) : Prop :=
  record.isMapping = false ∨ criteria.isMapping = false ∨
    ∃ entries, criteria = .mapping entries ∧ ∃ e ∈ entries, ∀ path, e.1 ≠ .text path

theorem checkedCriteria_of_rejected (h : Rejected record criteria) :
    ∃ f, checkedCriteria record criteria = .error f := by
  cases hc : checkedCriteria record criteria with
  | error f => exact ⟨f, rfl⟩
  | ok cs =>
    obtain ⟨hrecord, hcriteria⟩ := checkedCriteria_eq_ok hc
    rcases h with h | h | ⟨entries, rfl, e, he, hkey⟩
    · exact nomatch hrecord.symm.trans h
    · rw [hcriteria] at h
      exact nomatch h
    · obtain rfl := Value.mapping.inj hcriteria
      obtain ⟨c, -, rfl⟩ := List.mem_map.1 he
      exact absurd rfl (hkey c.1)

/-- Verdict and explanation log the same up to where the verdict stops. The verdict tells of the satisfied entries in
front and of the one that is not satisfied; the explanation tells of every entry that comes to a verdict, and its one
warning is of an entry that is refused. Of what is rejected neither logs anything. -/
theorem log_isEligible_prefix_log_explain (settings : Settings) (record criteria : Value) :
    (isEligible settings record criteria).log <+: (explain settings record criteria).log ∧
    (∀ fields cs, record = .mapping fields → criteria = criteriaOf cs →
      VerdictLog settings record cs (isEligible settings record criteria).outcome
        (isEligible settings record criteria).log ∧
      ExplanationLog settings record cs (explain settings record criteria).log ∧
      ((∃ e ∈ (explain settings record criteria).log, e.level = .warning) ↔
        ∃ r, FirstFault settings record cs (.refusal r))) ∧
    (Rejected record criteria → ∃ f, isEligible settings record criteria = .ofOutcome (.error f) ∧
      explain settings record criteria = .ofOutcome (.error f)) := by
  refine ⟨?_, ?_, fun hrejected => ?_⟩
  · cases hc : checkedCriteria record criteria with
    | error f =>
      rw [isEligible, hc]
      exact List.nil_prefix
    | ok cs =>
      rw [isEligible, explain, hc]
      exact (verdictLog_eligibleFrom settings record cs).isPrefix
  · rintro fields cs rfl rfl
    rw [isEligible, explain, checkedCriteria_criteriaOf]
    have hlog := explanationLog_outcomesFrom settings (.mapping fields) cs
    exact ⟨verdictLog_eligibleFrom settings _ cs, hlog, hlog.warning_iff⟩
  · obtain ⟨f, hf⟩ := checkedCriteria_of_rejected hrejected
    exact ⟨f, by rw [isEligible, hf], by rw [explain, hf]⟩

/-- The verdict stops at the second entry; the explanation goes on to the third, which is refused. -/
theorem log_isEligible_prefix_log_explain_refused :
    let record : Value := .mapping [(.text "a", .int 1), (.text "b", .int 2), (.text "c", .int 3)]
    let cs : List Criterion := [("a", .int 1), ("b", .int 3), ("c", .mapping [(.text "near", .int 1)]), ("d", .null)]
    (isEligible .default record (criteriaOf cs)).log =
      [⟨.debug, "Criteria path 'a' satisfied"⟩, ⟨.debug, "Criteria path 'b' not satisfied"⟩] ∧
    (isEligible .default record (criteriaOf cs)).log <+: (explain .default record (criteriaOf cs)).log ∧
    (explain .default record (criteriaOf cs)).log.drop 2 = [⟨.warning,
      "Evaluation of criteria path 'c' failed: [UNSUPPORTED_OPERATION] Unsupported operation: near"⟩] ∧
    (∃ r, FirstFault .default record cs (.refusal r)) ∧
    ∃ f, isEligible .default record (.list [criteriaOf cs]) = .ofOutcome (.error f) ∧
      explain .default record (.list [criteriaOf cs]) = .ofOutcome (.error f) := by
  intro record cs
  have hdrop : (explain .default record (criteriaOf cs)).log.drop 2 = [⟨.warning,
      "Evaluation of criteria path 'c' failed: [UNSUPPORTED_OPERATION] Unsupported operation: near"⟩] := by
    decide +kernel
  obtain ⟨hstart, haccepted, -⟩ := log_isEligible_prefix_log_explain .default record (criteriaOf cs)
  obtain ⟨-, -, hwarning⟩ := haccepted _ cs rfl rfl
  have hmem : ∃ e ∈ (explain .default record (criteriaOf cs)).log, e.level = .warning :=
    ⟨_, List.mem_of_mem_drop (hdrop ▸ List.mem_cons_self), rfl⟩
  obtain ⟨-, -, hrejected⟩ := log_isEligible_prefix_log_explain .default record (.list [criteriaOf cs])
  exact ⟨by decide +kernel, hstart, hdrop, hwarning.1 hmem, hrejected (.inr (.inl rfl))⟩

end Criteria
