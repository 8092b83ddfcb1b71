import Criteria.Proofs.SideBySide

namespace Criteria

def Fault.IsDepth (f : Fault) : Prop := ∃ r, f = .refusal r ∧ r.category = .depth

def FailsForDepth {α : Type} (r : Except Fault α) : Prop := ∃ f, r = .error f ∧ f.IsDepth

theorem EndAlike.failsForDepth_or_eq {α : Type} {R : α → α → Prop} {r r' : Except Fault α}
    (h : EndAlike Fault.IsDepth R r r') (hR : ∀ x y, R x y → x = y) : FailsForDepth r ∨ r = r' := by
  cases h with
  | excused hf => exact .inl ⟨_, rfl, hf⟩
  | fault => exact .inr rfl
  | result hxy => exact .inr (congrArg Except.ok (hR _ _ hxy))

section Limits
variable {settings settings' : Settings} {record criteria : Value} {depth depth' : Int}
  (hcoerce : settings.coerce = settings'.coerce) (hlimit : settings.maxDepth ≤ settings'.maxDepth)
include hcoerce hlimit

theorem headroom_of_le (hle : depth' ≤ depth) :
    Headroom Fault.IsDepth settings settings' depth depth' :=
  .more hcoerce (fun r hr => ⟨r, rfl, hr⟩) (by omega)

theorem evaluate_failsForDepth_or_eq (record : Value) (c : Criterion) :
    FailsForDepth (evaluate settings record c) ∨
      evaluate settings record c = evaluate settings' record c := by
  have h := evaluate_alike unseen_eq (headroom_of_le hcoerce hlimit (Int.le_refl 0)) (Eq.refl record) c
  exact h.failsForDepth_or_eq fun x y h => Prod.ext h.1 h.2

theorem outcomesFrom_failsForDepth_or_eq (record : Value) (cs : List Criterion) :
    FailsForDepth (outcomesFrom settings record cs).outcome ∨
      outcomesFrom settings record cs = outcomesFrom settings' record cs := by
  induction cs with
  | nil => exact .inr rfl
  | cons c cs ih =>
    rw [outcomesFrom, outcomesFrom]
    rcases evaluate_failsForDepth_or_eq hcoerce hlimit record c with ⟨f, he, hf⟩ | he
    · rw [he]
      exact .inl ⟨f, rfl, hf⟩
    · rw [← he]
      cases evaluate settings record c with
      | error f => exact .inr rfl
      | ok x =>
        rcases ih with ⟨f, ho, hf⟩ | heq
        · -- an explanation gives up at the first entry that fails
          refine .inl ⟨f, ?_, hf⟩
          simp only [ho]
          rfl
        · exact .inr (by rw [heq])

theorem explain_failsForDepth_or_eq :
    FailsForDepth (explain settings record criteria).outcome ∨
      explain settings record criteria = explain settings' record criteria := by
  rw [explain, explain]
  cases checkedCriteria record criteria with
  | error f => exact .inr rfl
  | ok cs =>
    rcases outcomesFrom_failsForDepth_or_eq hcoerce hlimit record cs with ⟨f, ho, hf⟩ | heq
    · refine .inl ⟨f, ?_, hf⟩
      simp only [ho]
      rfl
    · exact .inr (by simp only [heq])

end Limits

/-- A higher limit changes no verdict, no explanation and no match, unless there was none for lack of depth. A
match may also start at a lesser depth. -/
theorem higher_limit_keeps_outcome (settings settings' : Settings)
    (hcoerce : settings.coerce = settings'.coerce) (hlimit : settings.maxDepth ≤ settings'.maxDepth) :
    (∀ record criteria, FailsForDepth (isEligible settings record criteria).outcome ∨
      isEligible settings record criteria = isEligible settings' record criteria) ∧
    (∀ record criteria, FailsForDepth (explain settings record criteria).outcome ∨
      explain settings record criteria = explain settings' record criteria) ∧
    ∀ v c depth depth', depth' ≤ depth → FailsForDepth (holds settings c v depth) ∨
      holds settings c v depth = holds settings' c v depth' := by
  refine ⟨fun record criteria => ?_, fun record criteria => ?_, fun v c depth depth' hle => ?_⟩
  · exact isEligible_alike unseen_eq (headroom_of_le hcoerce hlimit (Int.le_refl 0)) rfl rfl
  · exact explain_failsForDepth_or_eq hcoerce hlimit
  · have h := holds_alike (c := c) unseen_eq (headroom_of_le hcoerce hlimit hle) (Eq.refl v)
    exact h.failsForDepth_or_eq fun _ _ h => h

/-- Two lists and two alternatives within each other: a limit of three is too low for them, and one of four is
enough for verdicts, refusals of another kind and explanations. -/
theorem higher_limit_keeps_outcome_from_four :
    let three : Settings := ⟨3, false, by decide⟩
    let four : Settings := ⟨4, false, by decide⟩
    let record : Value := .mapping [(.text "a", .list [.list [.int 1]])]
    let criteria : Value := .mapping [(.text "a", .list [.tuple [.int 1]])]
    let strange : Value := .mapping [(.text "a", .mapping [(.text "b", .null)])]
    FailsForDepth (isEligible three record criteria).outcome ∧
      (isEligible four record strange).outcome = .error (.refusal (.unknownOperator "b")) ∧
      isEligible four record strange = isEligible .default record strange ∧
      (explain four record criteria).outcome.toOption.isSome = true ∧
      explain four record criteria = explain .default record criteria ∧
      holds four (.int 1) (.list [.list [.int 1]]) 2 =
        holds .default (.int 1) (.list [.list [.int 1]]) 0 := by
  intro three four record criteria strange
  obtain ⟨hverdict, hexplain, hmatch⟩ := higher_limit_keeps_outcome four .default rfl (by decide)
  have hlow : (isEligible three record criteria).outcome =
      .error (.refusal (.conditionTooDeep 3)) := by decide +kernel
  have hrefused : (isEligible four record strange).outcome =
      .error (.refusal (.unknownOperator "b")) := by decide +kernel
  have hexplained : (explain four record criteria).outcome.toOption.isSome = true := by
    decide +kernel
  have hmatched : holds four (.int 1) (.list [.list [.int 1]]) 2 = .ok true := by decide +kernel
  refine ⟨⟨_, hlow, _, rfl, rfl⟩, hrefused, ?_, hexplained, ?_, ?_⟩
  · rcases hverdict record strange with ⟨f, hf, r, hr, hcat⟩ | h
    · rw [hrefused, hr] at hf
      cases hf
      exact nomatch hcat
    · exact h
  · rcases hexplain record criteria with ⟨f, hf, -⟩ | h
    · rw [hf] at hexplained
      exact nomatch hexplained
    · exact h
  · rcases hmatch (.list [.list [.int 1]]) (.int 1) 2 0 (by decide) with ⟨f, hf, -⟩ | h
    · rw [hmatched] at hf
      exact nomatch hf
    · exact h

end Criteria
