import Criteria.Proofs.Explanation

namespace Criteria
variable {settings settings' : Settings} {a b record criteria : Value} {c : Criterion}

/-- The comparisons that hold under the first settings hold under the second. -/
structure Settings.ExtendedBy (settings settings' : Settings) : Prop where
  equal {a b : Value} : primitiveEqual settings a b = .ok true → primitiveEqual settings' a b = .ok true
  related {r : Relation} {a b : Value} :
    Criteria.related settings r a b = .ok true → Criteria.related settings' r a b = .ok true

theorem numericOrder?_of_exact (h : settings.coerce = false) : numericOrder? settings a b = .ok none := by
  rw [numericOrder?, h]
  rfl

theorem primitiveEqual_of_exact (h : settings.coerce = false) :
    primitiveEqual settings a b = .ok true → primitiveEqual settings' a b = .ok true := by
  unfold primitiveEqual
  rw [numericOrder?_of_exact h]
  split
  · exact id
  · split
    · exact id
    · split
      · exact id
      · -- values of two kinds are not equal unless one of them is converted
        exact fun he => nomatch he

theorem related_of_exact (h : settings.coerce = false) {r : Relation} :
    related settings r a b = .ok true → related settings' r a b = .ok true := by
  unfold related order?
  rw [numericOrder?_of_exact h]
  split
  · exact id
  · split
    · exact id
    · exact fun hr => nomatch hr

theorem Settings.extendedBy_of_exact (h : settings.coerce = false) : settings.ExtendedBy settings' :=
  ⟨primitiveEqual_of_exact h, related_of_exact h⟩

mutual

theorem Satisfies.mono {settings settings' : Settings} (h : settings.ExtendedBy settings') :
    ∀ {v c : Value}, Satisfies settings v c → Satisfies settings' v c
  | _, _, .leaf hl ha hs => .leaf hl ha (hs.mono h)

theorem LeafSatisfies.mono {settings settings' : Settings} (h : settings.ExtendedBy settings') :
    ∀ {l a : Value}, LeafSatisfies settings l a → LeafSatisfies settings' l a
  | _, _, .equal hl ha he => .equal hl ha (h.equal he)
  | _, _, .fields hs => .fields fun e he => (hs e he).mono h
  | _, _, .operators hl hs => .operators hl fun e he => (hs e he).mono h

theorem OperatorHolds.mono {settings settings' : Settings} (h : settings.ExtendedBy settings') :
    ∀ {key l operand : Value}, OperatorHolds settings key l operand → OperatorHolds settings' key l operand
  | _, _, _, .relation hk hr => .relation hk (h.related hr)
  | _, _, _, .membership hk hi hx he => .membership hk hi hx (h.equal he)
  | _, _, _, .all hk hs => .all hk fun e he => (hs e he).mono h
  | _, _, _, .any hk he hs => .any hk he (hs.mono h)

end

theorem Meets.mono (h : settings.ExtendedBy settings') (hm : Meets settings record criteria) :
    Meets settings' record criteria := by
  obtain ⟨entries, rfl, hall⟩ := hm
  refine ⟨entries, rfl, fun e he => ?_⟩
  obtain ⟨path, hp, hs⟩ := hall e he
  exact ⟨path, hp, hs.mono h⟩

theorem Yields.mono (h : settings.ExtendedBy settings') {b : Bool} (hy : Yields settings record c true)
    (hy' : Yields settings' record c b) : b = true :=
  hy'.satisfies_iff.2 ((hy.satisfies_iff.1 rfl).mono h)

theorem Reports.yields {o : Outcome} (h : Reports settings record c o) :
    o.path = c.1 ∧ Yields settings record c o.matched := by
  obtain ⟨found, matched, he, rfl⟩ := h
  exact ⟨rfl, found, he⟩

theorem outcomes_mono (h : settings.ExtendedBy settings') {cs : List Criterion}
    {outcomes outcomes' : List Outcome} (hr : List.Forall₂ (Reports settings record) cs outcomes)
    (hr' : List.Forall₂ (Reports settings' record) cs outcomes') :
    List.Forall₂ (fun o o' => o.path = o'.path ∧ (o.matched = true → o'.matched = true)) outcomes
      outcomes' := by
  induction hr generalizing outcomes' with
  | nil =>
    cases hr'
    exact .nil
  | cons ho _ ih =>
    cases hr' with
    | cons ho' hr' =>
      obtain ⟨hpath, hy⟩ := ho.yields
      obtain ⟨hpath', hy'⟩ := ho'.yields
      refine .cons ⟨hpath.trans hpath'.symm, fun hm => ?_⟩ (ih hr')
      rw [hm] at hy
      exact hy.mono h hy'

/-- What is true while numeric texts are no numbers is not false once they may be: no verdict, no match, and
no outcome in an explanation. The limits make no difference to it. -/
theorem coercion_keeps_true (exact coercing : Settings) (h : exact.coerce = false) :
    (∀ record criteria, (isEligible exact record criteria).outcome = .ok true →
      (isEligible coercing record criteria).outcome ≠ .ok false) ∧
    (∀ v c depth, holds exact c v depth = .ok true → holds coercing c v depth ≠ .ok false) ∧
    ∀ record criteria e e', (explain exact record criteria).outcome = .ok e →
      (explain coercing record criteria).outcome = .ok e' →
      List.Forall₂ (fun o o' => o.path = o'.path ∧ (o.matched = true → o'.matched = true)) e.outcomes
        e'.outcomes := by
  have hext : exact.ExtendedBy coercing := Settings.extendedBy_of_exact h
  refine ⟨fun record criteria htrue hfalse => ?_, fun v c depth htrue hfalse => ?_,
    fun record criteria e e' he he' => ?_⟩
  · have hm := ((isEligible_iff_meets htrue).1 rfl).mono hext
    exact Bool.noConfusion ((isEligible_iff_meets hfalse).2 hm)
  · have hs := ((holds_tells exact c v depth).of_true htrue).mono hext
    exact (holds_tells coercing c v depth).of_false hfalse hs
  · obtain ⟨cs, hc, hr⟩ := explain_eq_ok he
    obtain ⟨cs', hc', hr'⟩ := explain_eq_ok he'
    rw [hc] at hc'
    cases hc'
    exact outcomes_mono hext hr hr'

/-- Once the text may be a number, the first alternative is read further, up to a key that names no operator; and
an entry that failed holds. -/
theorem coercion_keeps_true_or_fails :
    let coercing : Settings := ⟨100, true, by decide⟩
    let record : Value := .mapping [(.text "a", .text "5"), (.text "b", .int 1)]
    let condition : Value := .list [.mapping [(.text "gt", .int 4), (.text "near", .int 6)], .text "5"]
    let wrapped : Value := .mapping [(.text "a", condition)]
    let criteria : Value := .mapping [(.text "a", .int 5), (.text "b", .int 1)]
    Settings.default.coerce = false ∧
      ((isEligible .default record wrapped).outcome = .ok true ∧
        (isEligible coercing record wrapped).outcome ≠ .ok false) ∧
      (holds .default condition (.text "5") 0 = .ok true ∧
        holds coercing condition (.text "5") 0 ≠ .ok false) ∧
      ∃ e e', (explain .default record criteria).outcome = .ok e ∧
        (explain coercing record criteria).outcome = .ok e' ∧ e.eligible = false ∧ e'.eligible = true ∧
        List.Forall₂ (fun o o' => o.path = o'.path ∧ (o.matched = true → o'.matched = true)) e.outcomes
          e'.outcomes := by
  intro coercing record condition wrapped criteria
  obtain ⟨hverdict, hmatch, hexplain⟩ := coercion_keeps_true .default coercing rfl
  have htrue : (isEligible .default record wrapped).outcome = .ok true := by decide +kernel
  have hmatched : holds .default condition (.text "5") 0 = .ok true := by decide +kernel
  have hexact : (explain .default record criteria).outcome.map Explanation.eligible = .ok false := by
    decide +kernel
  have hcoercing : (explain coercing record criteria).outcome.map Explanation.eligible = .ok true := by
    decide +kernel
  obtain ⟨e, he, hfailed⟩ := map_eq_ok hexact
  obtain ⟨e', he', hpassed⟩ := map_eq_ok hcoercing
  exact ⟨rfl, ⟨htrue, hverdict record wrapped htrue⟩, ⟨hmatched, hmatch _ _ 0 hmatched⟩, e, e', he, he', hfailed,
    hpassed, hexplain record criteria e e' he he'⟩

end Criteria
