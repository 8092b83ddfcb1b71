import Criteria.Proofs.Comparison

namespace Criteria

mutual

/-- The integers in a value, those in keys included. -/
def Value.integers : Value → List Int
  | .number (.int n) => [n]
  | .list items => Value.allIntegers items
  | .tuple items => Value.allIntegers items
  | .mapping entries => Value.entryIntegers entries
  | _ => []

def Value.allIntegers : List Value → List Int
  | [] => []
  | v :: vs => v.integers ++ Value.allIntegers vs

def Value.entryIntegers : List (Value × Value) → List Int
  | [] => []
  | (k, v) :: es => k.integers ++ v.integers ++ Value.entryIntegers es

end

/-- What went wrong when a value has no text: one of its integers is too long. -/
def TooLongIn (v : Value) (f : Fault) : Prop :=
  f = .breakdown .integerTooLong ∧ ∃ n ∈ v.integers, ¬IsShort n

namespace Value
variable {v : Value} {f : Fault} {n : Int}

theorem integers_of_items? {items : List Value} (h : v.items? = some items) :
    v.integers = items.flatMap integers := by
  have hall : ∀ xs, allIntegers xs = xs.flatMap integers := by
    intro xs
    induction xs with
    | nil => rfl
    | cons x xs ih => rw [allIntegers, ih, List.flatMap_cons]
  rw [← hall]
  cases v <;> simp_all [items?, integers]

@[simp] theorem integers_mapping (entries : List (Value × Value)) :
    (mapping entries).integers = entries.flatMap fun e => e.1.integers ++ e.2.integers := by
  rw [integers]
  induction entries with
  | nil => rfl
  | cons e es ih => rw [entryIntegers, ih, List.flatMap_cons]

theorem mem_integers_iff : n ∈ v.integers ↔ Number.int n ∈ v.numbers := by
  induction v using nested_induction with
  | primitive v hv =>
    cases v with
    | number m => cases m <;> simp [integers, numbers]
    | list => cases hv
    | tuple => cases hv
    | mapping => cases hv
    | _ => simp [integers, numbers]
  | sequence v items hv ih =>
    rw [integers_of_items? hv, numbers_of_items? hv, List.mem_flatMap, List.mem_flatMap]
    exact exists_congr fun x => and_congr_right fun hx => ih x hx
  | mapping entries ih =>
    rw [integers_mapping, numbers_mapping, List.mem_flatMap, List.mem_flatMap]
    simp only [List.mem_append]
    exact exists_congr fun e => and_congr_right fun he => or_congr (ih e he).1 (ih e he).2

theorem itemLiterals_eq_error {items : List Value} (h : itemLiterals items = .error f) :
    ∃ x ∈ items, x.literal = .error f := by
  induction items with
  | nil => exact nomatch h
  | cons x xs ih =>
    rw [itemLiterals] at h
    rcases bind_eq_error h with hx | ⟨l, -, h⟩
    · exact ⟨x, List.mem_cons_self, hx⟩
    · rcases bind_eq_error h with hs | ⟨ls, -, h⟩
      · obtain ⟨y, hy, hl⟩ := ih hs
        exact ⟨y, List.mem_cons_of_mem _ hy, hl⟩
      · exact nomatch h

theorem entryLiterals_eq_error {entries : List (Value × Value)}
    (h : entryLiterals entries = .error f) :
    ∃ e ∈ entries, e.1.literal = .error f ∨ e.2.literal = .error f := by
  induction entries with
  | nil => exact nomatch h
  | cons e es ih =>
    rw [entryLiterals] at h
    rcases bind_eq_error h with hk | ⟨kl, -, h⟩
    · exact ⟨e, List.mem_cons_self, .inl hk⟩
    · rcases bind_eq_error h with hv | ⟨vl, -, h⟩
      · exact ⟨e, List.mem_cons_self, .inr hv⟩
      · rcases bind_eq_error h with hs | ⟨ls, -, h⟩
        · obtain ⟨d, hd, hl⟩ := ih hs
          exact ⟨d, List.mem_cons_of_mem _ hd, hl⟩
        · exact nomatch h

theorem literal_eq_error (h : v.literal = .error f) : TooLongIn v f := by
  -- only integers can lack a text, so the fault leads down to one of them
  induction v using nested_induction generalizing f with
  | primitive v hp =>
    cases v with
    | number n =>
      cases n with
      | int n =>
        obtain ⟨hf, hn⟩ := integerText_eq_error h
        exact ⟨hf, n, List.mem_singleton.2 rfl, hn⟩
      | _ => exact nomatch h
    | list _ => exact nomatch hp
    | tuple _ => exact nomatch hp
    | mapping _ => exact nomatch hp
    | _ => exact nomatch h
  | sequence v items hi ih =>
    have hl : itemLiterals items = .error f := by
      cases v with
      | list _ => cases hi; exact map_eq_error h
      | tuple _ => cases hi; exact map_eq_error h
      | _ => exact nomatch hi
    obtain ⟨x, hx, hf⟩ := itemLiterals_eq_error hl
    obtain ⟨he, n, hn, hs⟩ := ih x hx hf
    refine ⟨he, n, ?_, hs⟩
    rw [integers_of_items? hi]
    exact List.mem_flatMap.2 ⟨x, hx, hn⟩
  | mapping entries ih =>
    obtain ⟨e, he, hf⟩ := entryLiterals_eq_error (map_eq_error h)
    rw [TooLongIn, integers_mapping]
    rcases hf with hf | hf
    · obtain ⟨hg, n, hn, hs⟩ := (ih e he).1 hf
      exact ⟨hg, n, List.mem_flatMap.2 ⟨e, he, List.mem_append_left _ hn⟩, hs⟩
    · obtain ⟨hg, n, hn, hs⟩ := (ih e he).2 hf
      exact ⟨hg, n, List.mem_flatMap.2 ⟨e, he, List.mem_append_right _ hn⟩, hs⟩

theorem display_eq_error (h : v.display = .error f) : TooLongIn v f := by
  cases v with
  | text s => exact nomatch h
  | date d => exact nomatch h
  | moment m => exact nomatch h
  | number n =>
    cases n with
    | int n =>
      obtain ⟨hf, hn⟩ := integerText_eq_error (map_eq_error h)
      exact ⟨hf, n, List.mem_singleton.2 rfl, hn⟩
    | _ => exact nomatch h
  | _ => exact literal_eq_error (map_eq_error h)

end Value

theorem TooLongIn.mono {v w : Value} {f : Fault} (h : TooLongIn v f) (hsub : v.numbers ⊆ w.numbers) :
    TooLongIn w f := by
  obtain ⟨hf, n, hn, hs⟩ := h
  exact ⟨hf, n, Value.mem_integers_iff.2 (hsub (Value.mem_integers_iff.1 hn)), hs⟩

theorem NumberFault.of_tooLongIn {v w : Value} {f : Fault} (h : TooLongIn v f ∨ TooLongIn w f) :
    NumberFault v w f := by
  rcases h with ⟨rfl, n, hn, hs⟩ | ⟨rfl, n, hn, hs⟩
  · exact .tooLong (.inl (Value.mem_integers_iff.1 hn)) hs
  · exact .tooLong (.inr (Value.mem_integers_iff.1 hn)) hs

theorem textOf_eq_error {outcomes : List Outcome} {f : Fault}
    (h : Explanation.textOf outcomes = .error f) : ∃ o ∈ outcomes, o.resolved.display = .error f := by
  unfold Explanation.textOf at h
  split at h
  · exact nomatch h
  · rcases bind_eq_error h with hs | ⟨summaries, -, h⟩
    · obtain ⟨o, ho, hf⟩ := mapM_eq_error hs
      have hg := map_eq_error hf
      split at hg
      · exact ⟨o, ho, hg⟩
      · exact nomatch hg
    · exact nomatch h

end Criteria
