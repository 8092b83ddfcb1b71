import Criteria.Proofs.DecimalNumeral
import Mathlib.Data.List.Forall2
import Mathlib.Data.Nat.Digits.Defs

namespace Criteria.Numeral
open Text
variable {c : Char} {cs body : List Char} {d m : ℕ} {ds : List ℕ} {n : ℤ}

/-- The digits of a script follow its zero, in the order of their values. -/
def IsDigit (c : Char) (d : ℕ) : Prop := d < 10 ∧ ∃ z ∈ digitZeros, c.toNat = z + d

/-- Digits, and single underscores between digits. -/
inductive GroupedDigits : List Char → List ℕ → Prop
  | last {c : Char} {d : ℕ} : IsDigit c d → GroupedDigits [c] [d]
  | next {c : Char} {d : ℕ} {cs : List Char} {ds : List ℕ} : IsDigit c d → GroupedDigits cs ds →
    GroupedDigits (c :: cs) (d :: ds)
  | underscore {c : Char} {d : ℕ} {cs : List Char} {ds : List ℕ} : IsDigit c d → GroupedDigits cs ds →
    GroupedDigits (c :: '_' :: cs) (d :: ds)

/-- A text that denotes an integer: digits within the limit behind a sign or none, white space around. -/
inductive DenotesInteger : List Char → ℤ → Prop
  | mk {before sign body after : List Char} {negative : Bool} {ds : List ℕ} : (∀ c ∈ before, isWhiteSpace c = true) →
    (∀ c ∈ after, isWhiteSpace c = true) → SignText sign negative → GroupedDigits body ds → ds.length ≤ digitLimit →
    DenotesInteger (before ++ (sign ++ body ++ after))
      (if negative then -(Nat.ofDigits 10 ds.reverse : ℕ) else (Nat.ofDigits 10 ds.reverse : ℕ))

theorem digitZeros_apart : ∀ z ∈ digitZeros, ∀ z' ∈ digitZeros, z = z' ∨ z + 10 ≤ z' ∨ z' + 10 ≤ z := by
  decide +kernel

theorem digitValue?_eq_some_iff : digitValue? c = some d ↔ IsDigit c d := by
  constructor
  · intro h
    refine ⟨digitValue?_lt h, ?_⟩
    obtain ⟨z, hz, rfl⟩ := Option.map_eq_some_iff.1 h
    have hrange := List.find?_some hz
    simp only [Bool.and_eq_true, decide_eq_true_eq] at hrange
    exact ⟨z, List.mem_of_find?_eq_some hz, by omega⟩
  · rintro ⟨hd, z, hz, hc⟩
    cases hfind : digitZeros.find? fun z => decide (z ≤ c.toNat) && decide (c.toNat < z + 10) with
    | none =>
      have hnot := List.find?_eq_none.1 hfind z hz
      simp only [Bool.and_eq_true, decide_eq_true_eq] at hnot
      omega
    | some z' =>
      have hrange := List.find?_some hfind
      simp only [Bool.and_eq_true, decide_eq_true_eq] at hrange
      have hapart := digitZeros_apart z hz z' (List.mem_of_find?_eq_some hfind)
      rw [digitValue?, hfind, Option.map_some, Option.some_inj]
      omega

theorem IsDigit.ne (h : IsDigit c d) : c ≠ '_' ∧ c ≠ '+' ∧ c ≠ '-' := by
  rw [← digitValue?_eq_some_iff] at h
  refine ⟨?_, ?_, ?_⟩ <;> rintro rfl <;> exact nomatch h

theorem foldl_digitValue? {acc : Option ℕ} :
    cs.foldl (fun acc c => acc.bind fun n => (digitValue? c).map (10 * n + ·)) acc = some m ↔
      ∃ a ds, acc = some a ∧ List.Forall₂ IsDigit cs ds ∧ ds.foldl (fun n d => d + 10 * n) a = m := by
  induction cs generalizing acc with
  | nil => simp
  | cons c cs ih =>
    rw [List.foldl_cons, ih]
    constructor
    · rintro ⟨b, ds, hb, hds, rfl⟩
      obtain ⟨a, rfl, hb⟩ := Option.bind_eq_some_iff.1 hb
      obtain ⟨d, hd, rfl⟩ := Option.map_eq_some_iff.1 hb
      exact ⟨a, d :: ds, rfl, .cons (digitValue?_eq_some_iff.1 hd) hds, by rw [List.foldl_cons, Nat.add_comm]⟩
    · rintro ⟨a, ds, rfl, hds, rfl⟩
      cases hds with
      | @cons _ d _ ds hd hds =>
        refine ⟨10 * a + d, ds, ?_, hds, by rw [List.foldl_cons, Nat.add_comm]⟩
        rw [Option.bind_some, digitValue?_eq_some_iff.2 hd, Option.map_some]

/-- A run of digits is read as the number with these digits. -/
theorem digitsValue?_eq_some_iff :
    digitsValue? cs = some m ↔ ∃ ds, List.Forall₂ IsDigit cs ds ∧ Nat.ofDigits 10 ds.reverse = m := by
  rw [digitsValue?, foldl_digitValue?]
  simp [Nat.ofDigits_eq_foldr, List.foldr_reverse]

theorem GroupedDigits.splitOn (h : GroupedDigits body ds) :
    [] ∉ splitOn '_' body ∧ List.Forall₂ IsDigit (splitOn '_' body).flatten ds := by
  induction h with
  | last hd =>
    obtain ⟨piece, pieces, hnil, hcons⟩ := exists_splitOn_cons hd.ne.1 []
    cases hnil
    rw [hcons]
    exact ⟨by simp, .cons hd .nil⟩
  | @next c d cs ds hd _ ih =>
    obtain ⟨piece, pieces, hcs, hcons⟩ := exists_splitOn_cons hd.ne.1 cs
    rw [hcs] at ih
    rw [hcons]
    refine ⟨?_, .cons hd ih.2⟩
    rw [List.mem_cons, not_or] at ih ⊢
    exact ⟨(List.cons_ne_nil c piece).symm, ih.1.2⟩
  | @underscore c d cs ds hd _ ih =>
    obtain ⟨piece, pieces, hsep, hcons⟩ := exists_splitOn_cons hd.ne.1 ('_' :: cs)
    rw [splitOn_sep] at hsep
    cases hsep
    rw [hcons]
    refine ⟨?_, .cons hd ih.2⟩
    rw [List.mem_cons, not_or]
    exact ⟨(List.cons_ne_nil c []).symm, ih.1⟩

theorem groupedDigits_of_splitOn {body : List Char} {ds : List ℕ} (hne : [] ∉ splitOn '_' body)
    (h : List.Forall₂ IsDigit (splitOn '_' body).flatten ds) : GroupedDigits body ds := by
  match body with
  | [] => exact absurd (List.mem_singleton_self []) hne
  | c :: cs =>
    have hc : c ≠ '_' := by
      rintro rfl
      simp at hne
    obtain ⟨piece, pieces, hcs, hcons⟩ := exists_splitOn_cons hc cs
    rw [hcons] at hne h
    rw [List.mem_cons, not_or] at hne
    obtain _ | ⟨hd, h⟩ := h
    cases piece with
    | cons e piece =>
      refine .next hd (groupedDigits_of_splitOn ?_ (hcs ▸ h))
      rw [hcs, List.mem_cons, not_or]
      exact ⟨(List.cons_ne_nil e piece).symm, hne.2⟩
    | nil =>
      -- the first group ends behind its first digit
      rcases splitOn_eq_nil_cons hcs with ⟨rfl, rfl⟩ | ⟨tail, rfl, rfl⟩
      · cases h
        exact .last hd
      · exact .underscore hd (groupedDigits_of_splitOn hne.2 h)
termination_by body.length

theorem isWhiteSpace_of_isBlank (h : isBlank c = false) : isWhiteSpace c = false :=
  Bool.eq_false_iff.2 fun hw => Bool.false_ne_true (h.symm.trans (isBlank_of_isWhiteSpace hw))

theorem GroupedDigits.isWhiteSpace (h : GroupedDigits body ds) : ∀ c ∈ body, isWhiteSpace c = false := by
  have hdigit {c : Char} {d : ℕ} (hd : IsDigit c d) : Text.isWhiteSpace c = false :=
    isWhiteSpace_of_isBlank (isBlank_of_digitValue? (digitValue?_eq_some_iff.2 hd))
  induction h with
  | last hd => exact List.forall_mem_singleton.2 (hdigit hd)
  | next hd _ ih => exact List.forall_mem_cons.2 ⟨hdigit hd, ih⟩
  | underscore hd _ ih => exact List.forall_mem_cons.2 ⟨hdigit hd, List.forall_mem_cons.2 ⟨by decide, ih⟩⟩

theorem GroupedDigits.head (h : GroupedDigits body ds) : ∀ c ∈ body.head?, c ≠ '+' ∧ c ≠ '-' := by
  cases h with
  | last hd | next hd _ | underscore hd _ =>
    rintro c ⟨⟩
    exact hd.ne.2

theorem integer?_eq {negative : Bool} (hs : takeSign (trim isWhiteSpace cs) = (negative, body)) :
    integer? cs =
      if (splitOn '_' body).any List.isEmpty || digitLimit < (splitOn '_' body).flatten.length then none
      else (digitsValue? (splitOn '_' body).flatten).map fun m : ℕ => if negative then -(m : ℤ) else m := by
  simp only [integer?, hs]
  cases digitsValue? (splitOn '_' body).flatten <;> rfl

theorem not_refused_iff {groups : List (List Char)} :
    ¬(groups.any List.isEmpty || digitLimit < groups.flatten.length) = true ↔
      [] ∉ groups ∧ groups.flatten.length ≤ digitLimit := by
  have hempty : groups.any List.isEmpty = true ↔ [] ∈ groups := by
    rw [List.any_eq_true]
    exact ⟨fun ⟨g, hg, he⟩ => List.isEmpty_iff.1 he ▸ hg, fun h => ⟨[], h, rfl⟩⟩
  rw [Bool.or_eq_true, not_or, hempty, decide_eq_true_eq, not_lt]

/-- Reading accepts the texts that denote an integer, as the integer that they denote. -/
theorem integer?_eq_some_iff : integer? cs = some n ↔ DenotesInteger cs n := by
  constructor
  · intro h
    obtain ⟨before, after, hcs, hb, ha⟩ := exists_trim_append isWhiteSpace cs
    obtain ⟨sign, hsign, htext⟩ := exists_sign_append (trim isWhiteSpace cs)
    obtain ⟨negative, body, hs⟩ : ∃ negative body, takeSign (trim isWhiteSpace cs) = (negative, body) := ⟨_, _, rfl⟩
    rw [hs] at hsign htext
    rw [integer?_eq hs] at h
    by_cases hrefused : ((splitOn '_' body).any List.isEmpty || digitLimit < (splitOn '_' body).flatten.length) = true
    · rw [if_pos hrefused] at h
      exact nomatch h
    · rw [if_neg hrefused] at h
      obtain ⟨hne, hlength⟩ := not_refused_iff.1 hrefused
      obtain ⟨m, hm, rfl⟩ := Option.map_eq_some_iff.1 h
      obtain ⟨ds, hds, rfl⟩ := digitsValue?_eq_some_iff.1 hm
      rw [hcs, htext]
      exact .mk hb ha hsign (groupedDigits_of_splitOn hne hds) (hds.length_eq ▸ hlength)
  · -- neither a sign nor a digit is white space, so exactly the white space around them is taken off
    rintro @⟨before, sign, body, after, negative, ds, hb, ha, hsign, hbody, hlength⟩
    have hsigned : ∀ c ∈ sign ++ body, isWhiteSpace c = false := by
      rw [List.forall_mem_append]
      exact ⟨fun c hc => isWhiteSpace_of_isBlank (hsign.chars c hc).isBlank, hbody.isWhiteSpace⟩
    have htake := takeSign_append hsign hbody.head
    rw [← trim_append hb ha hsigned] at htake
    obtain ⟨hne, hds⟩ := hbody.splitOn
    rw [← hds.length_eq] at hlength
    rw [integer?_eq htake, if_neg (not_refused_iff.2 ⟨hne, hlength⟩), digitsValue?_eq_some_iff.2 ⟨ds, hds, rfl⟩]
    rfl

end Criteria.Numeral
