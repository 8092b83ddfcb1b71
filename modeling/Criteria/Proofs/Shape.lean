import Criteria.Proofs.Leaves
import Criteria.Proofs.Parts
import Criteria.Shape

namespace Criteria.Shape
variable {location : Text} {c v key : Value} {entries : List (Value × Value)}

/-- What a junction asks of the value under it; other keys ask for nothing. -/
def SuitsKey (key operand : Value) : Prop :=
  ∀ j, junction? key = some j →
    ∃ entries, operand = .mapping entries ∧ ∀ e ∈ entries, (Operator.ofKey? e.1).isSome

/-- Under all keys in a condition stands what suits them. -/
def InOrder (c : Value) : Prop := ∀ key operand, Part c (some key) operand → SuitsKey key operand

theorem unknownKeys_eq_nil {j : Junction} (h : unknownKeys location j entries = .ok []) :
    ∀ e ∈ entries, (Operator.ofKey? e.1).isSome := by
  induction entries with
  | nil => simp
  | cons e es ih =>
    rw [unknownKeys] at h
    by_cases hk : (Operator.ofKey? e.1).isSome
    · rw [if_pos hk] at h
      exact List.forall_mem_cons.2 ⟨hk, ih h⟩
    · rw [if_neg hk] at h
      obtain ⟨name, -, h⟩ := bind_eq_ok h
      obtain ⟨others, -, h⟩ := bind_eq_ok h
      exact nomatch h

theorem conditionProblems_of_items? {items : List Value} (h : v.items? = some items) :
    conditionProblems location v = itemProblems location 0 items := by
  cases v <;> simp_all [Value.items?, conditionProblems]

theorem itemProblems_eq_nil {index : Nat} {items : List Value}
    (h : itemProblems location index items = .ok []) :
    ∀ x ∈ items, ∃ inner, conditionProblems inner x = .ok [] := by
  induction items generalizing index with
  | nil => simp
  | cons x xs ih =>
    rw [itemProblems] at h
    obtain ⟨found, hx, h⟩ := bind_eq_ok h
    obtain ⟨others, hs, h⟩ := bind_eq_ok h
    obtain ⟨hf, ho⟩ := List.append_eq_nil_iff.1 (Except.ok.inj h)
    rw [hf] at hx
    rw [ho] at hs
    exact List.forall_mem_cons.2 ⟨⟨_, hx⟩, ih hs⟩

theorem entryProblems_of_junction {j : Junction} (hj : junction? key = some j)
    (hv : v.isMapping = false) :
    entryProblems location ((key, v) :: entries) =
      Except.ok [.operandNotMapping location j] >>= fun found =>
        entryProblems location entries >>= fun others => pure (found ++ others) := by
  rw [entryProblems, hj]
  intro operand ho
  rw [ho] at hv
  exact nomatch hv

theorem entryProblems_of_plain (hj : junction? key = none) (hv : v.isMapping = false) :
    entryProblems location ((key, v) :: entries) =
      keyLocation location key >>= fun inner => conditionProblems inner v >>= fun found =>
        entryProblems location entries >>= fun others => pure (found ++ others) := by
  rw [entryProblems, hj]
  intro operand ho
  rw [ho] at hv
  exact nomatch hv

theorem entryProblems_mapping {operand : List (Value × Value)} :
    entryProblems location ((key, .mapping operand) :: entries) =
      (match junction? key with
        | some j => unknownKeys location j operand
        | none => .ok []) >>= fun unknown =>
      keyLocation location key >>= fun inner => entryProblems inner operand >>= fun found =>
        entryProblems location entries >>= fun others => pure (unknown ++ found ++ others) := by
  rw [entryProblems]
  cases junction? key <;> rfl

theorem entryProblems_cons_eq_nil (h : entryProblems location ((key, v) :: entries) = .ok []) :
    SuitsKey key v ∧ (∃ inner, conditionProblems inner v = .ok []) ∧
      entryProblems location entries = .ok [] := by
  -- the names under a junction are looked at before the conditions under them, and a junction over no mapping is
  -- the problem itself
  by_cases hm : v.isMapping
  · obtain ⟨operand, rfl⟩ := Value.isMapping_iff.1 hm
    rw [entryProblems_mapping] at h
    obtain ⟨unknown, hu, h⟩ := bind_eq_ok h
    obtain ⟨inner, -, h⟩ := bind_eq_ok h
    obtain ⟨found, hf, h⟩ := bind_eq_ok h
    obtain ⟨others, ho, h⟩ := bind_eq_ok h
    obtain ⟨hnil, rfl⟩ := List.append_eq_nil_iff.1 (Except.ok.inj h)
    obtain ⟨rfl, rfl⟩ := List.append_eq_nil_iff.1 hnil
    refine ⟨?_, ⟨inner, hf⟩, ho⟩
    intro j hj
    rw [hj] at hu
    exact ⟨operand, rfl, unknownKeys_eq_nil hu⟩
  · rw [Bool.not_eq_true] at hm
    cases hj : junction? key with
    | some j =>
      rw [entryProblems_of_junction hj hm] at h
      obtain ⟨found, hf, h⟩ := bind_eq_ok h
      obtain ⟨others, -, h⟩ := bind_eq_ok h
      rw [← Except.ok.inj hf] at h
      exact nomatch (List.append_eq_nil_iff.1 (Except.ok.inj h)).1
    | none =>
      rw [entryProblems_of_plain hj hm] at h
      obtain ⟨inner, -, h⟩ := bind_eq_ok h
      obtain ⟨found, hf, h⟩ := bind_eq_ok h
      obtain ⟨others, ho, h⟩ := bind_eq_ok h
      obtain ⟨rfl, rfl⟩ := List.append_eq_nil_iff.1 (Except.ok.inj h)
      refine ⟨?_, ⟨inner, hf⟩, ho⟩
      intro j hs
      rw [hj] at hs
      exact nomatch hs

theorem entryProblems_eq_nil (h : entryProblems location entries = .ok []) :
    ∀ e ∈ entries, SuitsKey e.1 e.2 ∧ ∃ inner, conditionProblems inner e.2 = .ok [] := by
  induction entries with
  | nil => simp
  | cons e es ih =>
    obtain ⟨hs, hi, h⟩ := entryProblems_cons_eq_nil h
    exact List.forall_mem_cons.2 ⟨⟨hs, hi⟩, ih h⟩

/-- No part of a condition without problems has any. -/
theorem conditionProblems_part {under : Option Value} (h : conditionProblems location c = .ok [])
    (hp : Part c under v) :
    (∃ inner, conditionProblems inner v = .ok []) ∧ ∀ key, under = some key → SuitsKey key v := by
  induction hp with
  | whole => exact ⟨⟨location, h⟩, fun key hk => nomatch hk⟩
  | item _ hi hx ih =>
    -- an item is a condition of its own, whatever key the sequence stands under
    obtain ⟨⟨inner, hv⟩, -⟩ := ih
    refine ⟨?_, fun key hk => nomatch hk⟩
    rw [conditionProblems_of_items? hi] at hv
    exact itemProblems_eq_nil hv _ hx
  | entry _ he ih =>
    obtain ⟨⟨inner, hv⟩, -⟩ := ih
    obtain ⟨hs, hi⟩ := entryProblems_eq_nil hv _ he
    refine ⟨hi, fun key hk => ?_⟩
    cases hk
    exact hs

theorem inOrder_of_conditionProblems (h : conditionProblems location c = .ok []) : InOrder c :=
  fun key _ hp => (conditionProblems_part h hp).2 key rfl

theorem firstProblem?_of_not_text (h : key.text? = none) :
    firstProblem? ((key, v) :: entries) = key.literal.map fun l => some (.pathNotText l) := by
  rw [firstProblem?]
  intro path hk
  rw [hk] at h
  exact nomatch h

theorem firstProblem?_eq_none (h : firstProblem? entries = .ok none) :
    ∀ e ∈ entries, ∃ path, e.1 = .text path ∧ InOrder e.2 := by
  induction entries with
  | nil => simp
  | cons e es ih =>
    obtain ⟨key, condition⟩ := e
    cases hk : key.text? with
    | none =>
      rw [firstProblem?_of_not_text hk] at h
      obtain ⟨l, -, h⟩ := map_eq_ok h
      exact nomatch h
    | some path =>
      have hkey : key = .text path := Value.eq_text_of_text? hk
      rw [hkey, firstProblem?] at h
      split at h
      · exact nomatch h
      · split at h
        · exact nomatch h
        · exact nomatch h
        · next hc =>
          exact List.forall_mem_cons.2 ⟨⟨path, hkey, inOrder_of_conditionProblems hc⟩, ih h⟩

theorem check_eq_none {criteria : Value} (h : check criteria = .ok none) :
    ∃ entries, criteria = .mapping entries ∧
      ∀ e ∈ entries, ∃ path, e.1 = .text path ∧ InOrder e.2 := by
  cases criteria with
  | mapping entries => exact ⟨entries, rfl, firstProblem?_eq_none h⟩
  | _ => exact nomatch h

end Criteria.Shape
