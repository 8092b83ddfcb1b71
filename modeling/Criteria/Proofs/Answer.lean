import Criteria.Proofs.Ending

namespace Criteria.Command
variable {host : Host} {files : Files} {env : Environment} {args : Arguments} {settings : Settings}
  {record criteria : Value} {f : Fault}

theorem isEligible_of_explain {e : Explanation} (hp : Presentable settings record criteria)
    (he : (explain settings record criteria).outcome = .ok e) :
    (isEligible settings record criteria).outcome = .ok e.eligible := by
  rcases isEligible_explain_cases hp with
    ⟨hi, e', he', ht⟩ | ⟨hi, -, -, -, -, -, -, ⟨e', he', ht⟩ | ⟨f, he', -⟩⟩ | ⟨f, -, he'⟩
  · rw [Except.ok.inj (he.symm.trans he'), ht, hi]
  · rw [Except.ok.inj (he.symm.trans he'), ht, hi]
  · exact nomatch he.symm.trans he'
  · exact nomatch he.symm.trans he'

theorem Prepared.answers (hhost : host.IsSound) (h : Prepared files env args record criteria settings) :
    (∀ b, shownVerdict? args.json (runArguments host files env args).output = some b →
      (isEligible settings record criteria).outcome = .ok b) ∧
    ((∃ f, Refuses host files env args f ∧ (runArguments host files env args).ending = .error f) ∨
      ∃ exit, (runArguments host files env args).ending = .ok exit ∧
        (exit = .eligible ↔ (isEligible settings record criteria).outcome = .ok true) ∧
        (exit = .notEligible → (isEligible settings record criteria).outcome = .ok false) ∧
        ∀ r, (isEligible settings record criteria).outcome = .error (.refusal r) → exit = .invalid) := by
  have hpresentable : Presentable settings record criteria :=
    presentable_of_short (Document.loaded_of_load h.record).isShort
  cases he : (explain settings record criteria).outcome with
  | ok e =>
    have hi := isEligible_of_explain hpresentable he
    obtain ⟨hended, hshown⟩ := verdict_or_refuses hhost ⟨record, criteria, settings, h, he⟩
    refine ⟨fun b hb => hshown b hb ▸ hi, hended.imp_right fun hended => ⟨_, hended.1, ?_⟩⟩
    rw [hi]
    cases e.eligible <;> simp [Exit.ofVerdict]
  | error f =>
    -- without an explanation the check may still have said no, but it has not said yes
    have hi : (isEligible settings record criteria).outcome ≠ .ok true := by
      rcases isEligible_explain_cases hpresentable with ⟨-, e, he', -⟩ | ⟨hi, -⟩ | ⟨g, hi, -⟩
      · exact nomatch he'.symm.trans he
      · simp [hi]
      · simp [hi]
    obtain ⟨hended, hshown⟩ := report_or_refuses hhost (.refused h he)
    refine ⟨fun b hb => (nomatch hshown.symm.trans hb), hended.imp_right fun hended => ⟨_, hended.1, ?_⟩⟩
    simp [hi]

section
variable {args' : Arguments} (hrecord : args'.record = args.record) (hcriteria : args'.criteria = args.criteria)
  (hdates : args'.parseDates = args.parseDates)
include hrecord hcriteria hdates

end

end Criteria.Command
