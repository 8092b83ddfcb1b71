import Criteria.Proofs.Shape
import Criteria.Proofs.Showing

namespace Criteria.Shape
variable {location : Text} {c v key : Value} {items : List Value} {entries : List (Value × Value)}

/-- The shape of criteria: every entry stands under a path without empty segments, and in its condition every entry of
a mapping, wherever that stands, that is named like a junction holds a mapping with names of operators for keys. -/
def WellShaped (criteria : Value) : Prop :=
  ∃ entries, criteria = .mapping entries ∧ ∀ e ∈ entries, (∃ path, e.1 = .text path ∧ [] ∉ segments path) ∧
    ∀ under node, Part e.2 under (.mapping node) → ∀ m ∈ node, ∀ j : Junction, m.1 = .text j.name →
      ∃ operators, m.2 = .mapping operators ∧ ∀ o ∈ operators, ∃ op : Operator, o.1 = .text op.name

/-- The keys of all mappings in a value have texts. -/
def HasWritableKeys (c : Value) : Prop :=
  ∀ under entries, Part c under (.mapping entries) → ∀ e ∈ entries, ∃ text, e.1.literal = .ok text

def answer (criteria : Value) : Except Fault (Bool × Text) :=
  (check criteria).map fun problem => (problem.isNone, verdictText problem)

@[simp] theorem named?_eq_some_iff {name : Text} {op : Operator} : Operator.named? name = some op ↔ name = op.name := by
  constructor
  · intro h
    have hfound := List.find?_some (p := fun op : Operator => op.name == name) h
    exact (beq_iff_eq.1 hfound).symm
  · rintro rfl
    exact Operator.named?_name op

@[simp] theorem ofKey?_eq_some_iff {op : Operator} : Operator.ofKey? key = some op ↔ key = .text op.name := by
  cases key with
  | text name => rw [Operator.ofKey?, named?_eq_some_iff, Value.text.injEq]
  | _ => exact ⟨fun h => (nomatch h), fun h => (nomatch h)⟩

@[simp] theorem junction?_eq_some_iff {j : Junction} : junction? key = some j ↔ key = .text j.name := by
  have hkey : Operator.ofKey? key = some (.junction j) ↔ key = .text j.name := ofKey?_eq_some_iff
  rw [← hkey, junction?]
  split
  · next k hk => simp [hk]
  · next hk => exact ⟨fun h => (nomatch h), fun h => absurd h (hk j)⟩

/-- What a junction asks of the value under it, said without looking the names up. -/
theorem suitsKey_iff :
    SuitsKey key v ↔ ∀ j : Junction, key = .text j.name →
      ∃ operators, v = .mapping operators ∧ ∀ o ∈ operators, ∃ op : Operator, o.1 = .text op.name := by
  simp [SuitsKey, Option.isSome_iff_exists]

theorem inOrder_iff :
    InOrder c ↔ ∀ under node, Part c under (.mapping node) → ∀ m ∈ node, SuitsKey m.1 m.2 := by
  constructor
  · intro h under node hp m hm
    exact h m.1 m.2 (hp.entry hm)
  · intro h key operand hp
    cases hp with
    | entry hp hm => exact h _ _ hp _ hm

theorem InOrder.of_part {under : Option Value} (h : InOrder c) (hp : Part c under v) : InOrder v := by
  rw [inOrder_iff] at h ⊢
  intro _ node hv m hm
  obtain ⟨_, hc⟩ := hp.trans hv
  exact h _ node hc m hm

theorem HasWritableKeys.of_part {under : Option Value} (h : HasWritableKeys c) (hp : Part c under v) :
    HasWritableKeys v := by
  intro _ node hv
  obtain ⟨_, hc⟩ := hp.trans hv
  exact h _ node hc

theorem hasWritableKeys_of_short (h : ∀ n ∈ c.integers, IsShort n) : HasWritableKeys c := by
  intro _ entries hp e he
  cases hl : e.1.literal with
  | ok text => exact ⟨text, rfl⟩
  | error f =>
    obtain ⟨-, n, hn, hlong⟩ := Value.literal_eq_error hl
    have hkey : e.1.numbers ⊆ c.numbers :=
      List.Subset.trans (Value.numbers_subset_of_mem_entries he).1 hp.numbers_subset
    exact absurd (h n (Value.mem_integers_iff.2 (hkey (Value.mem_integers_iff.1 hn)))) hlong

theorem exists_display {text : String} (h : v.literal = .ok text) : ∃ shown, v.display = .ok shown := by
  have hshown : v.literal.map Text.ofString = .ok text := congrArg (Except.map _) h
  cases v with
  | number n =>
    cases n with
    | decimal d => exact ⟨d.text, rfl⟩
    | _ => exact ⟨text, hshown⟩
  | text s => exact ⟨s, rfl⟩
  | date d => exact ⟨d.isoText, rfl⟩
  | moment m => exact ⟨_, rfl⟩
  | _ => exact ⟨text, hshown⟩

theorem exists_keyLocation {text : String} (h : key.literal = .ok text) (location : Text) :
    ∃ inner, keyLocation location key = .ok inner := by
  obtain ⟨shown, hs⟩ := exists_display h
  exact ⟨_, congrArg (Except.map _) hs⟩

theorem exists_unknownKeys (location : Text) (j : Junction) (h : ∀ e ∈ entries, ∃ text, e.1.literal = .ok text) :
    ∃ ps, unknownKeys location j entries = .ok ps ∧ ((∀ e ∈ entries, (Operator.ofKey? e.1).isSome) → ps = []) := by
  induction entries with
  | nil => exact ⟨[], rfl, fun _ => rfl⟩
  | cons e es ih =>
    rw [List.forall_mem_cons] at h
    obtain ⟨⟨text, ht⟩, hes⟩ := h
    obtain ⟨ps, hps, hnil⟩ := ih hes
    rw [unknownKeys, hps]
    by_cases hk : (Operator.ofKey? e.1).isSome
    · rw [if_pos hk]
      exact ⟨ps, rfl, fun hall => hnil fun o ho => hall o (List.mem_cons_of_mem _ ho)⟩
    · rw [if_neg hk]
      obtain ⟨name, hn⟩ := exists_display ht
      rw [hn]
      exact ⟨_, rfl, fun hall => absurd (hall e List.mem_cons_self) hk⟩

/-- A condition is checked to the end, and nothing is found in it if it is in order. -/
def IsChecked (v : Value) : Prop :=
  ∀ location, ∃ ps, conditionProblems location v = .ok ps ∧ (InOrder v → ps = [])

theorem exists_itemProblems (h : ∀ x ∈ items, IsChecked x) (location : Text) (index : Nat) :
    ∃ ps, itemProblems location index items = .ok ps ∧ ((∀ x ∈ items, InOrder x) → ps = []) := by
  induction items generalizing index with
  | nil => exact ⟨[], rfl, fun _ => rfl⟩
  | cons x xs ih =>
    rw [List.forall_mem_cons] at h
    obtain ⟨found, hfound, hx⟩ := h.1 (itemLocation location index)
    obtain ⟨others, hothers, hxs⟩ := ih h.2 (index + 1)
    rw [itemProblems, hfound, hothers]
    refine ⟨found ++ others, rfl, fun hall => ?_⟩
    rw [List.forall_mem_cons] at hall
    rw [hx hall.1, hxs hall.2, List.append_nil]

theorem exists_entryProblems_cons {text : String} {others : List Problem} (hkey : key.literal = .ok text)
    (hkeys : HasWritableKeys v) (hv : IsChecked v) (hothers : entryProblems location entries = .ok others) :
    ∃ ps, entryProblems location ((key, v) :: entries) = .ok (ps ++ others) ∧
      (SuitsKey key v → InOrder v → ps = []) := by
  obtain ⟨inner, hinner⟩ := exists_keyLocation hkey location
  obtain ⟨found, hfound, hnil⟩ := hv inner
  -- what a key asks of its value decides only where there is a junction under it
  cases hm : v.isMapping with
  | true =>
    obtain ⟨operand, rfl⟩ := Value.isMapping_iff.1 hm
    have hentries : entryProblems inner operand = .ok found := hfound
    rw [entryProblems_mapping, hinner, hothers]
    cases hj : junction? key with
    | none =>
      refine ⟨found, ?_, fun _ => hnil⟩
      show (entryProblems inner operand >>= _) = _
      rw [hentries]
      rfl
    | some j =>
      obtain ⟨unknown, hunknown, hnamed⟩ := exists_unknownKeys location j (hkeys _ _ .whole)
      refine ⟨unknown ++ found, ?_, fun hs ho => ?_⟩
      · show (unknownKeys location j operand >>= fun unknown => entryProblems inner operand >>= _) = _
        rw [hunknown, hentries]
        rfl
      · obtain ⟨operand', hoperand, hall⟩ := hs j hj
        cases hoperand
        rw [hnamed hall, hnil ho, List.append_nil]
  | false =>
    cases hj : junction? key with
    | none =>
      refine ⟨found, ?_, fun _ => hnil⟩
      rw [entryProblems_of_plain hj hm, hinner, hothers]
      show (conditionProblems inner v >>= _) = _
      rw [hfound]
      rfl
    | some j =>
      rw [entryProblems_of_junction hj hm, hothers]
      refine ⟨[.operandNotMapping location j], rfl, fun hs => ?_⟩
      obtain ⟨operand, rfl, -⟩ := hs j hj
      exact nomatch hm

theorem exists_entryProblems (hkeys : ∀ e ∈ entries, ∃ text, e.1.literal = .ok text)
    (hvalues : ∀ e ∈ entries, HasWritableKeys e.2) (h : ∀ e ∈ entries, IsChecked e.2) (location : Text) :
    ∃ ps, entryProblems location entries = .ok ps ∧
      ((∀ e ∈ entries, SuitsKey e.1 e.2 ∧ InOrder e.2) → ps = []) := by
  induction entries with
  | nil => exact ⟨[], rfl, fun _ => rfl⟩
  | cons e es ih =>
    rw [List.forall_mem_cons] at hkeys hvalues h
    obtain ⟨⟨text, ht⟩, hkeys⟩ := hkeys
    obtain ⟨others, hothers, hes⟩ := ih hkeys hvalues.2 h.2
    obtain ⟨ps, hps, he⟩ := exists_entryProblems_cons ht hvalues.1 h.1 hothers
    refine ⟨ps ++ others, hps, fun hall => ?_⟩
    rw [List.forall_mem_cons] at hall
    rw [he hall.1.1 hall.1.2, hes hall.2, List.append_nil]

theorem isChecked (h : HasWritableKeys v) : IsChecked v := by
  induction v using Value.nested_induction with
  | primitive v hv =>
    intro location
    cases v with
    | list _ => exact nomatch hv
    | tuple _ => exact nomatch hv
    | mapping _ => exact nomatch hv
    | _ => exact ⟨[], rfl, fun _ => rfl⟩
  | sequence v items hi ih =>
    intro location
    have hitems : ∀ x ∈ items, IsChecked x := fun x hx => ih x hx (h.of_part (.item .whole hi hx))
    obtain ⟨ps, hps, hnil⟩ := exists_itemProblems hitems location 0
    rw [conditionProblems_of_items? hi]
    exact ⟨ps, hps, fun ho => hnil fun x hx => ho.of_part (.item .whole hi hx)⟩
  | mapping entries ih =>
    intro location
    have hvalues : ∀ e ∈ entries, HasWritableKeys e.2 := fun e he => h.of_part (.entry .whole he)
    have hall : ∀ e ∈ entries, IsChecked e.2 := fun e he => (ih e he).2 (hvalues e he)
    obtain ⟨ps, hps, hnil⟩ := exists_entryProblems (h _ _ .whole) hvalues hall location
    refine ⟨ps, hps, fun ho => hnil fun e he => ⟨?_, ho.of_part (.entry .whole he)⟩⟩
    exact ho e.1 e.2 (.entry .whole he)

theorem segments_any_isEmpty {path : Text} : (segments path).any List.isEmpty = true ↔ [] ∈ segments path := by
  simp only [List.any_eq_true, List.isEmpty_iff, exists_eq_right]

theorem wellShaped_mapping_iff :
    WellShaped (.mapping entries) ↔
      ∀ e ∈ entries, (∃ path, e.1 = .text path ∧ [] ∉ segments path) ∧ InOrder e.2 := by
  simp only [WellShaped, Value.mapping.injEq, exists_eq_left', inOrder_iff, suitsKey_iff]

theorem firstProblem?_of_emptySegment {path : Text} (h : [] ∈ segments path) :
    firstProblem? ((.text path, v) :: entries) = .ok (some (.emptySegment path)) := by
  rw [firstProblem?, if_pos (segments_any_isEmpty.2 h)]

theorem firstProblem?_of_segments {path : Text} {ps : List Problem} (h : [] ∉ segments path)
    (hps : conditionProblems path v = .ok ps) :
    firstProblem? ((.text path, v) :: entries) = ps.head?.elim (firstProblem? entries) fun p => .ok (some p) := by
  rw [firstProblem?, if_neg (mt segments_any_isEmpty.1 h), hps]
  cases ps <;> rfl

theorem firstProblem?_iff (hkeys : ∀ e ∈ entries, ∃ text, e.1.literal = .ok text)
    (hvalues : ∀ e ∈ entries, HasWritableKeys e.2) :
    ∃ problem, firstProblem? entries = .ok problem ∧
      (problem = none ↔ ∀ e ∈ entries, (∃ path, e.1 = .text path ∧ [] ∉ segments path) ∧ InOrder e.2) := by
  induction entries with
  | nil => exact ⟨none, rfl, by simp⟩
  | cons e es ih =>
    obtain ⟨key, condition⟩ := e
    simp only [List.forall_mem_cons] at hkeys hvalues ⊢
    obtain ⟨⟨text, ht⟩, hkeys⟩ := hkeys
    obtain ⟨problem, hproblem, hiff⟩ := ih hkeys hvalues.2
    rw [← hiff]
    -- an entry is turned down for its key, for a segment of its path, or for its condition, in this order
    cases hk : key.text? with
    | none =>
      rw [firstProblem?_of_not_text hk, ht]
      refine ⟨_, rfl, fun h => (nomatch h), ?_⟩
      rintro ⟨⟨⟨path, rfl, -⟩, -⟩, -⟩
      exact nomatch hk
    | some path =>
      obtain rfl : key = .text path := Value.eq_text_of_text? hk
      obtain ⟨ps, hps, hnil⟩ := isChecked hvalues.1 path
      by_cases he : [] ∈ segments path
      · rw [firstProblem?_of_emptySegment he]
        refine ⟨_, rfl, fun h => (nomatch h), ?_⟩
        rintro ⟨⟨⟨_, hp, hne⟩, -⟩, -⟩
        cases hp
        exact absurd he hne
      · rw [firstProblem?_of_segments he hps]
        cases ps with
        | nil =>
          refine ⟨problem, hproblem, fun h => ?_, And.right⟩
          exact ⟨⟨⟨path, rfl, he⟩, inOrder_of_conditionProblems hps⟩, h⟩
        | cons p ps => exact ⟨some p, rfl, fun h => (nomatch h), fun h => nomatch hnil h.1.2⟩

/-- The check comes to an end, and it finds nothing exactly if the shape is right. -/
theorem check_iff (h : HasWritableKeys c) :
    ∃ problem, check c = .ok problem ∧ (problem = none ↔ WellShaped c) := by
  by_cases hm : c.isMapping
  · obtain ⟨entries, rfl⟩ := Value.isMapping_iff.1 hm
    rw [wellShaped_mapping_iff]
    exact firstProblem?_iff (h _ _ .whole) fun e he => h.of_part (.entry .whole he)
  · have hcheck : check c = .ok (some (.notMapping c.typeName)) := by
      cases c <;> first | rfl | exact absurd rfl hm
    refine ⟨_, hcheck, fun h => (nomatch h), ?_⟩
    rintro ⟨entries, rfl, -⟩
    exact absurd rfl hm

theorem message_ne_valid (problem : Problem) : problem.message ≠ "Valid" := by
  have hspace : CodePoint.char ' ' ∈ problem.message := by
    cases problem with
    | notMapping typeName => exact List.mem_append_left _ (by decide)
    | pathNotText literal => exact List.mem_append_left _ (by decide)
    | emptySegment path => exact List.mem_append_left _ (by decide)
    | operandNotMapping location j => exact List.mem_append_right _ (by decide)
    | unknownOperator location j name =>
      exact List.mem_append_left _ (List.mem_append_left _ (List.mem_append_right _ (by decide)))
  intro h
  rw [h] at hspace
  exact absurd hspace (by decide)

/-- Criteria whose keys can be written pass the check exactly if they are well shaped. All others are turned down for
a reason. -/
theorem check_accepts_iff_wellShaped (criteria : Value) (h : HasWritableKeys criteria) :
    (answer criteria = .ok (true, "Valid") ↔ WellShaped criteria) ∧
    (¬WellShaped criteria → ∃ message, answer criteria = .ok (false, message) ∧ message ≠ "Valid") := by
  obtain ⟨problem, hcheck, hiff⟩ := check_iff h
  rw [answer, hcheck, ← hiff]
  cases problem with
  | none => exact ⟨⟨fun _ => rfl, fun _ => rfl⟩, fun hne => absurd rfl hne⟩
  | some problem =>
    refine ⟨⟨fun ha => ?_, fun hn => nomatch hn⟩, fun _ => ⟨_, rfl, message_ne_valid problem⟩⟩
    exact nomatch congrArg Prod.fst (Except.ok.inj ha)

/-- A junction under a field within lists, with a key under it that names an operator, and with one that does not. -/
theorem check_accepts_iff_wellShaped_in_lists :
    let criteria (name : Text) : Value := .mapping [(.text "a.b", .list [.tuple [.mapping [(.text "c", .mapping
      [(.text "or", .mapping [(.text "gt", .int 1), (.text name, .mapping [(.text "lt", .int 5)])])])]]])]
    (HasWritableKeys (criteria "and") ∧ WellShaped (criteria "and")) ∧
      HasWritableKeys (criteria "not") ∧ ¬WellShaped (criteria "not") ∧
      ∃ message, answer (criteria "not") = .ok (false, message) ∧ message ≠ "Valid" := by
  intro criteria
  have hshort : ∀ n ∈ [(1 : Int), 5], digitCount n.natAbs ≤ Numeral.digitLimit := by decide +kernel
  have hkeys (name : Text) : HasWritableKeys (criteria name) := hasWritableKeys_of_short hshort
  obtain ⟨hand, -⟩ := check_accepts_iff_wellShaped (criteria "and") (hkeys _)
  obtain ⟨hnot, hrefused⟩ := check_accepts_iff_wellShaped (criteria "not") (hkeys _)
  have hshape : ¬WellShaped (criteria "not") := mt hnot.2 (by decide +kernel)
  exact ⟨⟨hkeys _, hand.1 (by decide +kernel)⟩, hkeys _, hshape, hrefused hshape⟩

end Criteria.Shape
