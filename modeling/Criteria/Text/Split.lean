namespace Criteria.Text
variable {α : Type} [DecidableEq α]

/-- The pieces between the separators: always one more than there are separators. -/
def splitOn (sep : α) : List α → List (List α)
  | [] => [[]]
  | c :: cs =>
    if c = sep then [] :: splitOn sep cs
    else
      match splitOn sep cs with
      | [] => [[c]]
      | piece :: pieces => (c :: piece) :: pieces

theorem splitOn_ne_nil (sep : α) (cs : List α) : splitOn sep cs ≠ [] := by
  cases cs with
  | nil => simp [splitOn]
  | cons c cs => simp only [splitOn]; split <;> (try split) <;> simp

@[simp] theorem splitOn_sep (sep : α) (cs : List α) : splitOn sep (sep :: cs) = [] :: splitOn sep cs :=
  if_pos rfl

theorem exists_splitOn_cons {sep c : α} (h : c ≠ sep) (cs : List α) : ∃ piece pieces,
    splitOn sep cs = piece :: pieces ∧ splitOn sep (c :: cs) = (c :: piece) :: pieces := by
  cases hs : splitOn sep cs with
  | nil => exact absurd hs (splitOn_ne_nil sep cs)
  | cons piece pieces => exact ⟨piece, pieces, rfl, by rw [splitOn, if_neg h, hs]⟩

/-- The first piece is empty at the end of the text and in front of a separator. -/
theorem splitOn_eq_nil_cons {sep : α} {cs : List α} {pieces : List (List α)}
    (h : splitOn sep cs = [] :: pieces) :
    cs = [] ∧ pieces = [] ∨ ∃ tail, cs = sep :: tail ∧ splitOn sep tail = pieces := by
  cases cs with
  | nil => exact .inl ⟨rfl, (List.cons.inj h).2.symm⟩
  | cons c cs =>
    by_cases hc : c = sep
    · subst hc
      rw [splitOn_sep] at h
      exact .inr ⟨cs, rfl, (List.cons.inj h).2⟩
    · obtain ⟨piece, _, _, hcons⟩ := exists_splitOn_cons hc cs
      exact nomatch hcons.symm.trans h

theorem not_mem_of_mem_splitOn {sep : α} {cs piece : List α} (h : piece ∈ splitOn sep cs) :
    sep ∉ piece := by
  induction cs generalizing piece with
  | nil => simp_all [splitOn]
  | cons c cs ih =>
    simp only [splitOn] at h
    split at h
    · rcases List.mem_cons.1 h with rfl | h
      · simp
      · exact ih h
    · next hc =>
      split at h
      · next he => exact absurd he (splitOn_ne_nil sep cs)
      · next first rest he =>
        rcases List.mem_cons.1 h with rfl | h
        · have : sep ∉ first := ih (he ▸ List.mem_cons_self)
          simpa [Ne.symm hc] using this
        · exact ih (he ▸ List.mem_cons_of_mem _ h)

end Criteria.Text
