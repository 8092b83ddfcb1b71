import Criteria.Proofs.Explanation
import Criteria.Proofs.SameTree

namespace Criteria
variable {settings : Settings} {record : Value} {fields : List (Value × Value)} {c : Criterion} {cs : List Criterion}
  {outcomes : List Outcome} {f : Fault}

def criteriaOf (cs : List Criterion) : Value := .mapping (cs.map fun c => (.text c.1, c.2))

def explanation (settings : Settings) (fields : List (Value × Value)) (cs : List Criterion) : Except Fault Explanation :=
  (explain settings (.mapping fields) (criteriaOf cs)).outcome

theorem checkedCriteria_criteriaOf (fields : List (Value × Value)) (cs : List Criterion) :
    checkedCriteria (.mapping fields) (criteriaOf cs) = .ok cs := by
  show criteriaOfEntries (cs.map fun c => (Value.text c.1, c.2)) = .ok cs
  induction cs with
  | nil => rfl
  | cons c cs ih =>
    rw [List.map_cons, criteriaOfEntries, ih]
    rfl

theorem explanation_eq :
    explanation settings fields cs =
      (outcomesFrom settings (.mapping fields) cs).outcome.bind Explanation.ofOutcomes := by
  rw [explanation, explain, checkedCriteria_criteriaOf]

/-- What is reported for an entry, if it can be put into words. -/
def Tells (settings : Settings) (record : Value) (c : Criterion) (o : Outcome) : Prop :=
  Reports settings record c o ∧ ∃ summary, o.summary = .ok summary

theorem exists_textOf_iff :
    (∃ text, Explanation.textOf outcomes = .ok text) ↔ ∀ o ∈ outcomes, ∃ summary, o.summary = .ok summary := by
  cases outcomes with
  | nil => exact ⟨fun _ o ho => (nomatch ho), fun _ => ⟨_, rfl⟩⟩
  | cons o os =>
    constructor
    · rintro ⟨text, h⟩
      obtain ⟨summaries, hs, -⟩ := bind_eq_ok h
      exact exists_eq_ok_of_mapM hs
    · intro h
      obtain ⟨summaries, hs, -⟩ := exists_mapM (P := fun _ => True) fun o ho => (h o ho).imp fun _ hs => ⟨hs, trivial⟩
      cases ht : Explanation.textOf (o :: os) with
      | ok text => exact ⟨text, rfl⟩
      | error f =>
        rw [Explanation.textOf, hs] at ht
        exact nomatch ht

theorem forall₂_tells_iff :
    List.Forall₂ (Tells settings record) cs outcomes ↔
      List.Forall₂ (Reports settings record) cs outcomes ∧ ∀ o ∈ outcomes, ∃ summary, o.summary = .ok summary := by
  constructor
  · intro h
    induction h with
    | nil => exact ⟨.nil, fun _ ho => nomatch ho⟩
    | cons hr _ ih => exact ⟨.cons hr.1 ih.1, List.forall_mem_cons.2 ⟨hr.2, ih.2⟩⟩
  · rintro ⟨h, hs⟩
    induction h with
    | nil => exact .nil
    | cons hr _ ih =>
      rw [List.forall_mem_cons] at hs
      exact .cons ⟨hr, hs.1⟩ (ih hs.2)

/-- An explanation succeeds exactly if every entry has an outcome that can be told, and these are its outcomes. -/
theorem exists_explanation_iff :
    (∃ e, explanation settings fields cs = .ok e ∧ e.outcomes = outcomes) ↔
      List.Forall₂ (Tells settings (.mapping fields)) cs outcomes := by
  rw [explanation_eq, forall₂_tells_iff, ← exists_textOf_iff]
  constructor
  · rintro ⟨e, he, rfl⟩
    rcases reports_or_firstFault settings (.mapping fields) cs with ⟨os, hr⟩ | ⟨f, hf⟩
    · rw [outcomesFrom_of_reports hr] at he
      obtain ⟨text, ht, rfl⟩ := map_eq_ok he
      exact ⟨hr, text, ht⟩
    · rw [outcomesFrom_of_firstFault hf] at he
      exact nomatch he
  · rintro ⟨hr, text, ht⟩
    rw [outcomesFrom_of_reports hr]
    exact ⟨⟨outcomes, text⟩, congrArg (Except.map _) ht, rfl⟩

theorem exists_forall₂_iff {α β : Type} {R : α → β → Prop} {xs : List α} :
    (∃ ys, List.Forall₂ R xs ys) ↔ ∀ x ∈ xs, ∃ y, R x y := by
  induction xs with
  | nil => exact ⟨fun _ _ hx => (nomatch hx), fun _ => ⟨[], .nil⟩⟩
  | cons x xs ih =>
    rw [List.forall_mem_cons, ← ih]
    constructor
    · intro ⟨_, h⟩
      cases h with
      | cons hx hxs => exact ⟨⟨_, hx⟩, _, hxs⟩
    · rintro ⟨⟨y, hx⟩, ys, hxs⟩
      exact ⟨y :: ys, .cons hx hxs⟩

theorem explanation_isOk_iff :
    (∃ e, explanation settings fields cs = .ok e) ↔ ∀ c ∈ cs, ∃ o, Tells settings (.mapping fields) c o := by
  rw [← exists_forall₂_iff]
  constructor
  · intro ⟨e, he⟩
    exact ⟨e.outcomes, exists_explanation_iff.1 ⟨e, he, rfl⟩⟩
  · intro ⟨os, hos⟩
    obtain ⟨e, he, -⟩ := exists_explanation_iff.2 hos
    exact ⟨e, he⟩

theorem tells_iff_explanation_singleton {o : Outcome} :
    Tells settings (.mapping fields) c o ↔ ∃ e, explanation settings fields [c] = .ok e ∧ e.outcomes = [o] := by
  rw [exists_explanation_iff, List.forall₂_cons]
  exact ⟨fun h => ⟨h, .nil⟩, And.left⟩

theorem explanation_isOk_singleton_iff :
    (∃ e, explanation settings fields [c] = .ok e) ↔ ∃ o, Tells settings (.mapping fields) c o := by
  rw [explanation_isOk_iff, List.forall_mem_singleton]

theorem failedPathsOf_eq (h : List.Forall₂ (Reports settings record) cs outcomes) :
    Explanation.failedPathsOf outcomes =
      ((cs.zip outcomes).filter fun p => !p.2.matched).map fun p => p.1.1 := by
  induction h with
  | nil => rfl
  | @cons c o cs os hr _ ih =>
    obtain ⟨found, matched, -, rfl⟩ := hr
    rw [Explanation.failedPathsOf] at ih ⊢
    cases matched with
    | true => exact ih
    | false => exact congrArg (c.1 :: ·) ih

theorem exists_forall₂_of_perm {α β : Type} {R : α → β → Prop} {xs xs' : List α} {ys : List β} (hperm : xs'.Perm xs)
    (h : List.Forall₂ R xs ys) : ∃ ys', List.Forall₂ R xs' ys' ∧ (xs'.zip ys').Perm (xs.zip ys) := by
  obtain ⟨hlength, hall⟩ := List.forall₂_iff_zip.1 h
  have hfst : (xs.zip ys).map Prod.fst = xs := List.map_fst_zip (Nat.le_of_eq hlength)
  have himages : (xs'.map id).Perm ((xs.zip ys).map Prod.fst) := by rwa [List.map_id, hfst]
  obtain ⟨zs, hzs, hxs⟩ := SameTree.exists_perm_map himages
  rw [List.map_id] at hxs
  have hzip : zs = xs'.zip (zs.map Prod.snd) := List.zip_of_prod hxs.symm rfl
  refine ⟨zs.map Prod.snd, List.forall₂_iff_zip.2 ⟨by rw [hxs, List.length_map, List.length_map], ?_⟩, hzip ▸ hzs⟩
  intro a b hab
  exact hall (hzs.subset (hzip ▸ hab))

theorem presentable_criteriaOf_iff :
    Presentable settings (.mapping fields) (criteriaOf cs) ↔
      ∀ c ∈ cs, ∀ found, (Value.mapping fields).resolve settings.maxDepth c.1 = .ok found →
        ∃ text, found.rendered.display = .ok text := by
  rw [Presentable, checkedCriteria_criteriaOf]
  exact ⟨fun h => h cs rfl, fun h _ hcs => Except.ok.inj hcs ▸ h⟩

theorem explanation_eq_error_iff (hp : Presentable settings (.mapping fields) (criteriaOf cs)) :
    explanation settings fields cs = .error f ↔ FirstFault settings (.mapping fields) cs f := by
  have hchecked := checkedCriteria_criteriaOf fields cs
  constructor
  · intro h
    rcases reports_or_firstFault settings (.mapping fields) cs with ⟨os, hr⟩ | ⟨g, hg⟩
    · obtain ⟨e, he, -⟩ := explain_of_reports hr hchecked hp
      exact nomatch he.symm.trans h
    · obtain rfl : g = f := Except.error.inj ((explain_of_firstFault hg hchecked).symm.trans h)
      exact hg
  · intro h
    exact explain_of_firstFault h hchecked

/-- The fault of an explanation is that of the first entry that has one alone. -/
theorem firstFault_iff :
    FirstFault settings record cs f ↔
      ∃ before c after, cs = before ++ c :: after ∧ (∀ d ∈ before, ∃ o, Reports settings record d o) ∧
        FirstFault settings record [c] f := by
  constructor
  · intro h
    induction h with
    | @here c cs f he => exact ⟨[], c, cs, rfl, fun _ hd => (nomatch hd), .here he⟩
    | @later c _ _ b hy _ ih =>
      obtain ⟨found, he⟩ := hy
      obtain ⟨before, d, after, rfl, hbefore, hd⟩ := ih
      exact ⟨c :: before, d, after, rfl, List.forall_mem_cons.2 ⟨⟨_, found, b, he, rfl⟩, hbefore⟩, hd⟩
  · rintro ⟨before, c, after, rfl, hbefore, hc⟩
    induction before with
    | nil =>
      cases hc with
      | here he => exact .here he
      | later _ h => exact nomatch h
    | cons d before ih =>
      rw [List.forall_mem_cons] at hbefore
      obtain ⟨⟨_, found, b, he, -⟩, hbefore⟩ := hbefore
      exact .later ⟨found, he⟩ (ih hbefore)

theorem tells_iff_reports (hp : Presentable settings (.mapping fields) (criteriaOf cs)) (hc : c ∈ cs) {o : Outcome} :
    Tells settings (.mapping fields) c o ↔ Reports settings (.mapping fields) c o := by
  refine ⟨And.left, fun hr => ⟨hr, ?_⟩⟩
  obtain ⟨found, matched, he, rfl⟩ := hr
  obtain ⟨text, ht⟩ := presentable_criteriaOf_iff.1 hp c hc found (evaluate_eq_ok he).1
  rw [Outcome.summary]
  by_cases hd : (Outcome.of c.1 found matched).isDefined = true
  · rw [if_pos hd, show (Outcome.of c.1 found matched).resolved.display = .ok text from ht]
    exact ⟨_, rfl⟩
  · rw [if_neg hd]
    exact ⟨_, rfl⟩

/-- An explanation goes through the entries one by one: it succeeds if every entry alone does, has the outcomes that
these have, in any order of the entries, and counts as failed the paths that are not matched. What it fails with is what
the first entry fails with that fails alone. -/
theorem explanation_entry_by_entry (settings : Settings) (fields : List (Value × Value)) (cs : List Criterion) :
    ((∃ e, explanation settings fields cs = .ok e) ↔ ∀ c ∈ cs, ∃ e, explanation settings fields [c] = .ok e) ∧
    (∀ e, explanation settings fields cs = .ok e →
      List.Forall₂ (fun c o => ∃ alone, explanation settings fields [c] = .ok alone ∧ alone.outcomes = [o])
        cs e.outcomes ∧
      e.failedPaths = (((cs.zip e.outcomes).filter fun p => !p.2.matched).map fun p => p.1.1) ∧
      (e.eligible = true ↔ e.failedPaths = []) ∧
      ∀ cs', cs'.Perm cs → ∃ e', explanation settings fields cs' = .ok e' ∧ e'.eligible = e.eligible ∧
        (cs'.zip e'.outcomes).Perm (cs.zip e.outcomes) ∧ e'.failedPaths.Perm e.failedPaths) ∧
    (Presentable settings (.mapping fields) (criteriaOf cs) → ∀ f, explanation settings fields cs = .error f ↔
      ∃ before c after, cs = before ++ c :: after ∧ (∀ d ∈ before, ∃ e, explanation settings fields [d] = .ok e) ∧
        explanation settings fields [c] = .error f) := by
  refine ⟨?_, fun e he => ?_, fun hp f => ?_⟩
  · simp only [explanation_isOk_singleton_iff, explanation_isOk_iff]
  · have htells := exists_explanation_iff.1 ⟨e, he, rfl⟩
    have hfailed := failedPathsOf_eq (forall₂_tells_iff.1 htells).1
    refine ⟨htells.imp fun c o => tells_iff_explanation_singleton.1, hfailed, List.isEmpty_iff, fun cs' hperm => ?_⟩
    obtain ⟨os, hos, hzip⟩ := exists_forall₂_of_perm hperm htells
    obtain ⟨e', he', rfl⟩ := exists_explanation_iff.2 hos
    have hfailed' := failedPathsOf_eq (forall₂_tells_iff.1 hos).1
    have hpaths : e'.failedPaths.Perm e.failedPaths := by
      rw [Explanation.failedPaths, Explanation.failedPaths, hfailed, hfailed']
      exact (hzip.filter _).map _
    exact ⟨e', he', hpaths.isEmpty_eq, hzip, hpaths⟩
  · -- one entry alone fails as a list of one does, so both sides speak of the first fault
    rw [explanation_eq_error_iff hp, firstFault_iff]
    refine exists_congr fun before => exists_congr fun c => exists_congr fun after => and_congr_right fun hcs => ?_
    have hmem (d : Criterion) (hd : d ∈ before ++ [c]) : d ∈ cs := by
      rw [hcs, List.append_cons]
      exact List.mem_append_left _ hd
    have halone : Presentable settings (.mapping fields) (criteriaOf [c]) :=
      presentable_criteriaOf_iff.2 (List.forall_mem_singleton.2 (presentable_criteriaOf_iff.1 hp c (hmem c (by simp))))
    rw [explanation_eq_error_iff halone]
    refine and_congr_left fun _ => forall₂_congr fun d hd => ?_
    rw [explanation_isOk_singleton_iff]
    exact exists_congr fun o => (tells_iff_reports hp (hmem d (List.mem_append_left _ hd))).symm

/-- Two entries, of which one fails, the other way round; and of two entries that come to nothing the first. -/
theorem explanation_entry_by_entry_reversed :
    let fields : List (Value × Value) :=
      [(.text "a", .int 1), (.text "b", .list [.int 2]), (.text "c", .int 1)]
    let cs : List Criterion := [("a", .int 2), ("b", .mapping [(.text "gt", .int 1)])]
    let unknown : Criterion := ("a", .mapping [(.text "near", .int 1)])
    let bad : List Criterion := [("b", .int 2), unknown, ("c", .mapping [(.text "or", .int 1)])]
    (∃ e e', explanation .default fields cs = .ok e ∧ explanation .default fields cs.reverse = .ok e' ∧
      (cs.reverse.zip e'.outcomes).Perm (cs.zip e.outcomes) ∧ e.failedPaths = ["a"] ∧ e'.eligible = false) ∧
    Presentable .default (.mapping fields) (criteriaOf bad) ∧
    explanation .default fields bad = .error (.refusal (.unknownOperator "near")) := by
  intro fields cs unknown bad
  have hpresentable (cs : List Criterion) : Presentable .default (.mapping fields) (criteriaOf cs) :=
    presentable_of_short (show ∀ n ∈ [(1 : Int), 2, 1], digitCount n.natAbs ≤ Numeral.digitLimit by decide +kernel)
  have hfailed : (explanation .default fields cs).toOption.map Explanation.failedPaths = some [("a" : Text)] := by
    decide +kernel
  obtain ⟨e, he⟩ : ∃ e, explanation .default fields cs = .ok e := exists_eq_ok (by decide +kernel)
  obtain ⟨-, hall, -⟩ := explanation_entry_by_entry .default fields cs
  obtain ⟨-, -, heligible, hperm⟩ := hall e he
  obtain ⟨e', he', hsame, hzip, -⟩ := hperm cs.reverse cs.reverse_perm
  rw [he] at hfailed
  have hpaths : e.failedPaths = ["a"] := Option.some.inj hfailed
  have hverdict : e.eligible = false := Bool.eq_false_iff.2 fun h => nomatch hpaths.symm.trans (heligible.1 h)
  obtain ⟨-, -, hfault⟩ := explanation_entry_by_entry .default fields bad
  have hbefore : ∀ d ∈ ([("b", .int 2)] : List Criterion), ∃ e, explanation .default fields [d] = .ok e :=
    List.forall_mem_singleton.2 (exists_eq_ok (by decide +kernel))
  have hunknown : explanation .default fields [unknown] = .error (.refusal (.unknownOperator "near")) :=
    map_eq_error (show (explanation .default fields [unknown]).map Explanation.text = _ by decide +kernel)
  exact ⟨⟨e, e', he, he', hzip, hpaths, hsame.trans hverdict⟩, hpresentable bad,
    (hfault (hpresentable bad) _).2 ⟨_, unknown, _, rfl, hbefore, hunknown⟩⟩

end Criteria
