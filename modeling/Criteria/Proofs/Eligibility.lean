import Criteria.Explanation
import Criteria.Proofs.Path
import Criteria.Proofs.Satisfaction

namespace Criteria
variable {settings : Settings} {record criteria : Value} {c : Criterion} {cs : List Criterion}

/-- The entry comes to a verdict, which is `b`. -/
def Yields (settings : Settings) (record : Value) (c : Criterion) (b : Bool) : Prop :=
  ∃ found, evaluate settings record c = .ok (found, b)

theorem Yields.unique {a b : Bool} (ha : Yields settings record c a) (hb : Yields settings record c b) :
    a = b := by
  obtain ⟨x, hx⟩ := ha
  obtain ⟨y, hy⟩ := hb
  rw [hx] at hy
  cases hy
  rfl

theorem evaluate_of_ok {found : Value} (h : record.resolve settings.maxDepth c.1 = .ok found) :
    evaluate settings record c = (holds settings c.2 found 0).map fun b => (found, b) := by
  unfold evaluate
  rw [h]
  cases hh : holds settings c.2 found 0 <;>
    simp [Except.mapError, Except.map, bind, Except.bind, pure, Except.pure, hh]

theorem evaluate_of_error {r : Refusal} (h : record.resolve settings.maxDepth c.1 = .error r) :
    evaluate settings record c = .error (.refusal r) := by
  unfold evaluate
  rw [h]
  rfl

theorem evaluate_eq_ok {found : Value} {b : Bool} (h : evaluate settings record c = .ok (found, b)) :
    record.resolve settings.maxDepth c.1 = .ok found ∧ holds settings c.2 found 0 = .ok b := by
  cases hr : record.resolve settings.maxDepth c.1 with
  | error r =>
    rw [evaluate_of_error hr] at h
    exact nomatch h
  | ok v =>
    rw [evaluate_of_ok hr] at h
    obtain ⟨b', hh, hv⟩ := map_eq_ok h
    cases hv
    exact ⟨rfl, hh⟩

theorem evaluate_eq_error {f : Fault} (h : evaluate settings record c = .error f) :
    (∃ segment, f = .refusal (.segmentTooDeep segment settings.maxDepth)) ∨
      MatchingFault settings record c.2 f := by
  cases hr : record.resolve settings.maxDepth c.1 with
  | error r =>
    rw [evaluate_of_error hr] at h
    obtain ⟨segment, -, hs⟩ := Value.resolve_eq_error hr
    rw [hs] at h
    exact .inl ⟨segment, (Except.error.inj h).symm⟩
  | ok found =>
    rw [evaluate_of_ok hr] at h
    obtain ⟨hf, hn⟩ := (holds_tells settings c.2 found 0).faults f (map_eq_error h)
    refine .inr ⟨hf, fun hp => (hn hp).mono ?_ (List.Subset.refl _)⟩
    rw [Value.resolve_eq hr]
    exact Value.numbers_along_subset record (segments c.1)

/-- A run that stops at the first entry which is not satisfied or comes to no verdict. -/
theorem eligibleFrom_cases (settings : Settings) (record : Value) (cs : List Criterion) :
    ((eligibleFrom settings record cs).outcome = .ok true ∧ ∀ c ∈ cs, Yields settings record c true) ∨
    ∃ before c after, cs = before ++ c :: after ∧ (∀ d ∈ before, Yields settings record d true) ∧
      ((eligibleFrom settings record cs).outcome = .ok false ∧ Yields settings record c false ∨
      ∃ f, (eligibleFrom settings record cs).outcome = .error f ∧
        evaluate settings record c = .error f) := by
  induction cs with
  | nil => exact .inl ⟨rfl, by simp⟩
  | cons c cs ih =>
    rw [eligibleFrom]
    cases he : evaluate settings record c with
    | error f => exact .inr ⟨[], c, cs, rfl, by simp, .inr ⟨f, rfl, he⟩⟩
    | ok r =>
      obtain ⟨found, b⟩ := r
      cases b with
      | false => exact .inr ⟨[], c, cs, rfl, by simp, .inl ⟨rfl, found, he⟩⟩
      | true =>
        -- the run goes on, so it stops where the rest does
        have hc : Yields settings record c true := ⟨found, he⟩
        rcases ih with ⟨ho, hall⟩ | ⟨before, d, after, hcs, hb, hd⟩
        · exact .inl ⟨ho, List.forall_mem_cons.2 ⟨hc, hall⟩⟩
        · exact .inr ⟨c :: before, d, after, by rw [hcs, List.cons_append],
            List.forall_mem_cons.2 ⟨hc, hb⟩, hd⟩

theorem eligibleFrom_eq_ok {b : Bool} (h : (eligibleFrom settings record cs).outcome = .ok b) :
    b = true ∧ (∀ c ∈ cs, Yields settings record c true) ∨
      b = false ∧ ∃ c ∈ cs, Yields settings record c false := by
  rcases eligibleFrom_cases settings record cs with ⟨ho, hall⟩ | ⟨before, c, after, hcs, -, hc⟩
  · rw [ho] at h
    exact .inl ⟨(Except.ok.inj h).symm, hall⟩
  · rcases hc with ⟨ho, hc⟩ | ⟨f, ho, -⟩
    · rw [ho] at h
      exact .inr ⟨(Except.ok.inj h).symm, c, by simp [hcs], hc⟩
    · rw [ho] at h
      exact nomatch h

theorem eligibleFrom_eq_error {f : Fault} (h : (eligibleFrom settings record cs).outcome = .error f) :
    ∃ c ∈ cs, evaluate settings record c = .error f := by
  rcases eligibleFrom_cases settings record cs with ⟨ho, -⟩ | ⟨before, c, after, hcs, -, hc⟩
  · rw [ho] at h
    exact nomatch h
  · rcases hc with ⟨ho, -⟩ | ⟨g, ho, he⟩
    · rw [ho] at h
      exact nomatch h
    · rw [ho] at h
      rw [← Except.error.inj h]
      exact ⟨c, by simp [hcs], he⟩

theorem eligibleFrom_iff_of_yields {b : Bool} {P : Criterion → Prop}
    (hP : ∀ c b, Yields settings record c b → (b = true ↔ P c))
    (h : (eligibleFrom settings record cs).outcome = .ok b) : b = true ↔ ∀ c ∈ cs, P c := by
  rcases eligibleFrom_eq_ok h with ⟨hb, hall⟩ | ⟨hb, c, hc, hy⟩
  · exact iff_of_true hb fun c hc => (hP c true (hall c hc)).1 rfl
  · apply iff_of_false (by simp [hb])
    intro hall
    exact Bool.noConfusion ((hP c false hy).2 (hall c hc))

/-- What an entry's verdict says of the value that its path leads to. -/
theorem Yields.resolved_satisfies_iff {b : Bool} (h : Yields settings record c b) :
    b = true ↔ ∃ found, record.resolve settings.maxDepth c.1 = .ok found ∧
      Satisfies settings found c.2 := by
  obtain ⟨found, he⟩ := h
  obtain ⟨hr, hh⟩ := evaluate_eq_ok he
  have ht := (holds_tells settings c.2 found 0).truth b hh
  rw [ht, hr]
  simp

theorem Yields.satisfies_iff {b : Bool} (h : Yields settings record c b) :
    b = true ↔ Satisfies settings (record.along (segments c.1)) c.2 := by
  obtain ⟨found, he⟩ := h
  obtain ⟨hr, hh⟩ := evaluate_eq_ok he
  rw [← Value.resolve_eq hr]
  exact (holds_tells settings c.2 found 0).truth b hh

theorem criteriaOfEntries_of_not_text {key condition : Value} {entries : List (Value × Value)}
    (h : key.text? = none) :
    criteriaOfEntries ((key, condition) :: entries) =
      key.literal >>= fun l => .error (.refusal (.keyNotText key.typeName l)) := by
  cases key <;> first | rfl | exact nomatch h

theorem criteriaOfEntries_eq_ok {entries : List (Value × Value)}
    (h : criteriaOfEntries entries = .ok cs) :
    entries = cs.map fun c => (Value.text c.1, c.2) := by
  induction entries generalizing cs with
  | nil =>
    rw [criteriaOfEntries] at h
    cases h
    rfl
  | cons e es ih =>
    obtain ⟨key, condition⟩ := e
    cases hk : key.text? with
    | none =>
      rw [criteriaOfEntries_of_not_text hk] at h
      obtain ⟨l, -, h⟩ := bind_eq_ok h
      exact nomatch h
    | some path =>
      rw [Value.eq_text_of_text? hk, criteriaOfEntries] at h
      obtain ⟨others, ho, hcs⟩ := map_eq_ok h
      rw [← hcs, List.map_cons, ← ih ho, Value.eq_text_of_text? hk]

theorem criteriaOfEntries_of_text {entries : List (Value × Value)}
    (h : ∀ e ∈ entries, ∃ path, e.1 = .text path) : ∃ cs, criteriaOfEntries entries = .ok cs := by
  induction entries with
  | nil => exact ⟨[], rfl⟩
  | cons e es ih =>
    obtain ⟨⟨path, hp⟩, hes⟩ := List.forall_mem_cons.1 h
    obtain ⟨cs, hcs⟩ := ih hes
    obtain ⟨key, condition⟩ := e
    refine ⟨(path, condition) :: cs, ?_⟩
    rw [show key = .text path from hp, criteriaOfEntries, hcs]
    rfl

theorem checkedCriteria_eq_ok (h : checkedCriteria record criteria = .ok cs) :
    record.isMapping = true ∧ criteria = .mapping (cs.map fun c => (Value.text c.1, c.2)) := by
  unfold checkedCriteria at h
  split at h
  · exact ⟨rfl, congrArg Value.mapping (criteriaOfEntries_eq_ok h)⟩
  · exact nomatch h

theorem checkedCriteria_congr {record' : Value} (hk : record.kind = record'.kind) :
    checkedCriteria record criteria = checkedCriteria record' criteria := by
  by_cases hm : criteria.isMapping
  · obtain ⟨entries, rfl⟩ := Value.isMapping_iff.1 hm
    cases record <;> cases record' <;> first | rfl | exact nomatch hk
  · have hno : ∀ v : Value, checkedCriteria v criteria =
        .error (.refusal (.notMappings v.kind criteria.kind)) := by
      intro v
      cases v <;> cases criteria <;> first | rfl | exact absurd rfl hm
    rw [hno, hno, hk]

theorem forall_path_iff (Q : Text → Value → Prop) :
    (∀ e ∈ cs.map fun c => (Value.text c.1, c.2), ∃ path, e.1 = .text path ∧ Q path e.2) ↔
      ∀ c ∈ cs, Q c.1 c.2 := by
  rw [List.forall_mem_map]
  simp only [Value.text.injEq, exists_eq_left']

theorem isEligible_eq_ok {b : Bool} (h : (isEligible settings record criteria).outcome = .ok b) :
    ∃ cs, checkedCriteria record criteria = .ok cs ∧
      (eligibleFrom settings record cs).outcome = .ok b := by
  unfold isEligible at h
  cases hc : checkedCriteria record criteria with
  | error f => rw [hc] at h; exact nomatch h
  | ok cs => rw [hc] at h; exact ⟨cs, rfl, h⟩

theorem isEligible_iff_along {b : Bool} (h : (isEligible settings record criteria).outcome = .ok b) :
    ∃ cs, checkedCriteria record criteria = .ok cs ∧
      (b = true ↔ ∀ c ∈ cs, Satisfies settings (record.along (segments c.1)) c.2) := by
  obtain ⟨cs, hc, ho⟩ := isEligible_eq_ok h
  exact ⟨cs, hc, eligibleFrom_iff_of_yields (fun _ _ hy => hy.satisfies_iff) ho⟩

/-- Every path of the criteria leads to a value that satisfies the condition beside it. -/
def Meets (settings : Settings) (record criteria : Value) : Prop :=
  ∃ entries, criteria = .mapping entries ∧ ∀ e ∈ entries, ∃ path, e.1 = .text path ∧
    Satisfies settings (record.along (segments path)) e.2

theorem isEligible_iff_meets {b : Bool} (h : (isEligible settings record criteria).outcome = .ok b) :
    b = true ↔ Meets settings record criteria := by
  obtain ⟨cs, hc, hiff⟩ := isEligible_iff_along h
  rw [hiff, (checkedCriteria_eq_ok hc).2, Meets]
  simp only [Value.mapping.injEq, exists_eq_left']
  exact (forall_path_iff fun path condition =>
    Satisfies settings (record.along (segments path)) condition).symm

/-- A verdict on a record says whether every path leads to a value that satisfies the condition beside
it. How deep the path may go makes no difference to that value. -/
theorem isEligible_iff_satisfies (settings : Settings) (fields entries : List (Value × Value)) (b : Bool)
    (h : (isEligible settings (.mapping fields) (.mapping entries)).outcome = .ok b) :
    (b = true ↔ ∀ e ∈ entries, ∃ path, e.1 = .text path ∧
      ∃ found, (Value.mapping fields).resolve settings.maxDepth path = .ok found ∧
        Satisfies settings found e.2) ∧
    (b = true ↔ ∀ e ∈ entries, ∃ path, e.1 = .text path ∧
      Satisfies settings ((Value.mapping fields).along (segments path)) e.2) := by
  obtain ⟨cs, hc, ho⟩ := isEligible_eq_ok h
  have he : entries = cs.map fun c => (Value.text c.1, c.2) :=
    Value.mapping.inj (checkedCriteria_eq_ok hc).2
  have hr := eligibleFrom_iff_of_yields (fun _ _ hy => hy.resolved_satisfies_iff) ho
  have hs := eligibleFrom_iff_of_yields (fun _ _ hy => hy.satisfies_iff) ho
  rw [he]
  constructor
  · exact hr.trans (forall_path_iff fun path condition => ∃ found,
      (Value.mapping fields).resolve settings.maxDepth path = .ok found ∧
        Satisfies settings found condition).symm
  · exact hs.trans (forall_path_iff fun path condition =>
      Satisfies settings ((Value.mapping fields).along (segments path)) condition).symm

/-- An item without the field, lists within lists, and a key that names no operator but is not reached. -/
theorem isEligible_iff_satisfies_nested_items :
    let fields : List (Value × Value) := [(.text "items", .list [.mapping [], .tuple [.list [],
      .mapping [(.text "qty", .list [.int 1, .int 5])]]])]
    let entries : List (Value × Value) := [(.text "items.qty", .mapping [(.text "or", .mapping
      [(.text "gte", .int 3), (.text "in", .list [.null]), (.text "near", .int 4)])])]
    (isEligible .default (.mapping fields) (.mapping entries)).outcome = .ok true ∧
      ∀ e ∈ entries, ∃ path, e.1 = .text path ∧
        Satisfies .default ((Value.mapping fields).along (segments path)) e.2 := by
  intro fields entries
  have h : (isEligible .default (.mapping fields) (.mapping entries)).outcome = .ok true := by
    decide +kernel
  exact ⟨h, (isEligible_iff_satisfies .default fields entries true h).2.1 rfl⟩

end Criteria
