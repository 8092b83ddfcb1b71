import Criteria.Json
import Criteria.Json.Token
import Mathlib.Data.List.Basic

namespace Criteria.Json
open Text

theorem hexValue?_digitChar {d : Nat} (h : d < 16) : hexValue? (Nat.digitChar d) = some d :=
  (by decide : ∀ d < 16, hexValue? (Nat.digitChar d) = some d) d h

theorem hexDigits_four {n : Nat} (h : n < 0x10000) :
    hexDigits 4 n = [Nat.digitChar (n / 0x1000), Nat.digitChar (n / 0x100 % 0x10),
      Nat.digitChar (n / 0x10 % 0x10), Nat.digitChar (n % 0x10)] := by
  have hlong {k : Nat} (hk : 16 ≤ k) :
      Nat.toDigits 16 k = Nat.toDigits 16 (k / 16) ++ [Nat.digitChar (k % 16)] :=
    Nat.toDigits_of_base_le (by decide) hk
  have hshort {k : Nat} (hk : k < 16) : Nat.toDigits 16 k = [Nat.digitChar k] := Nat.toDigits_of_lt_base hk
  unfold hexDigits
  rcases Nat.lt_or_ge n 16 with h0 | h0
  · rw [hshort h0, show n / 0x1000 = 0 by omega, show n / 0x100 % 0x10 = 0 by omega,
      show n / 0x10 % 0x10 = 0 by omega, show n % 0x10 = n by omega]
    rfl
  · rcases Nat.lt_or_ge n 0x100 with h1 | h1
    · rw [hlong h0, hshort (by omega), show n / 0x1000 = 0 by omega, show n / 0x100 % 0x10 = 0 by omega,
        show n / 0x10 % 0x10 = n / 16 by omega]
      rfl
    · rcases Nat.lt_or_ge n 0x1000 with h2 | h2
      · rw [hlong h0, hlong (by omega), hshort (by omega), show n / 0x1000 = 0 by omega,
          show n / 0x100 % 0x10 = n / 16 / 16 by omega]
        rfl
      · rw [hlong h0, hlong (by omega), hlong (by omega), hshort (by omega),
          show n / 0x1000 = n / 16 / 16 / 16 by omega, show n / 0x100 % 0x10 = n / 16 / 16 % 16 by omega]
        rfl

def ReadsAs (text : List Char) (points : Text) : Prop :=
  ∀ start pos tail, tail ≠ [] → stringPoints start pos (text ++ tail) =
    (stringPoints start (pos + text.length) tail).map fun r => (points ++ r.1, r.2)

theorem ReadsAs.append {s t : List Char} {ps qs : Text} (hs : ReadsAs s ps) (ht : ReadsAs t qs) :
    ReadsAs (s ++ t) (ps ++ qs) := by
  intro start pos tail h
  rw [List.append_assoc, hs start pos (t ++ tail) (by simp [h]), ht start _ tail h, List.length_append,
    ← Nat.add_assoc]
  cases stringPoints start (pos + s.length + t.length) tail with
  | error e => rfl
  | ok r => simp [Except.map]

theorem readsAs_unit {n : Nat} (hn : n < 0x10000) : ReadsAs (unitEscape n) [.ofUnit n] := by
  intro start pos tail ht
  have hvalue : unitValue? (Nat.digitChar (n / 0x1000)) (Nat.digitChar (n / 0x100 % 0x10))
      (Nat.digitChar (n / 0x10 % 0x10)) (Nat.digitChar (n % 0x10)) = some n := by
    unfold unitValue?
    rw [hexValue?_digitChar (by omega), hexValue?_digitChar (by omega), hexValue?_digitChar (by omega),
      hexValue?_digitChar (by omega)]
    exact congrArg some (by omega)
  have htail : tail.isEmpty = false := List.isEmpty_eq_false_iff.2 ht
  rw [unitEscape, hexDigits_four hn]
  simp only [List.cons_append, List.nil_append]
  rw [stringPoints]
  simp [htail, hvalue]

theorem readsAs_escape {e c : Char} (he : e ≠ 'u') (h : simpleEscape? e = some c) :
    ReadsAs ['\\', e] [.char c] := by
  intro start pos tail _
  simp only [List.cons_append, List.nil_append]
  rw [stringPoints.eq_def]
  simp [he, h]

theorem readsAs_plain {c : Char} (hq : c ≠ '\x22') (hb : c ≠ '\\') (h : 0x20 ≤ c.toNat) :
    ReadsAs [c] [.char c] := by
  intro start pos tail _
  have : ¬c.toNat < 0x20 := by omega
  simp only [List.cons_append, List.nil_append]
  rw [stringPoints.eq_def]
  simp [hq, hb, this]

theorem ofUnit_toNat {p : CodePoint} (h : p.toNat < 0x10000) : CodePoint.ofUnit p.toNat = p := by
  cases p with
  | char c =>
    have hvalid : c.toNat < 0xd800 ∨ 0xdfff < c.toNat ∧ c.toNat < 0x110000 := c.valid
    have hchar : ¬(0xd800 ≤ c.toNat ∧ c.toNat < 0xe000) := by omega
    show CodePoint.ofUnit c.toNat = _
    rw [CodePoint.ofUnit, dif_neg hchar, Char.ofNat_toNat]
  | surrogate u =>
    have hu := u.isLt
    have hsurrogate : 0xd800 ≤ 0xd800 + u.val ∧ 0xd800 + u.val < 0xe000 := by omega
    show CodePoint.ofUnit (0xd800 + u.val) = _
    rw [CodePoint.ofUnit, dif_pos hsurrogate]
    exact congrArg CodePoint.surrogate (Fin.ext (Nat.add_sub_cancel_left ..))

/-- The UTF-16 units that stand for a code point. -/
def units : CodePoint → Text
  | .char c =>
    if c.toNat < 0x10000 then [.char c]
    else [.ofUnit (0xd800 + (c.toNat - 0x10000) / 0x400), .ofUnit (0xdc00 + (c.toNat - 0x10000) % 0x400)]
  | p => [p]

theorem units_of_lt {p : CodePoint} (h : p.toNat < 0x10000) : units p = [p] := by
  cases p with
  | char c => exact if_pos h
  | surrogate u => rfl

theorem exists_units_char {c : Char} (h : 0x10000 ≤ c.toNat) :
    ∃ u w : Fin 0x800, units (.char c) = [.surrogate u, .surrogate w] ∧ u.val < 0x400 ∧ pairChar? u w = some c := by
  have hvalid : c.toNat < 0xd800 ∨ 0xdfff < c.toNat ∧ c.toNat < 0x110000 := c.valid
  let u : Fin 0x800 := ⟨(c.toNat - 0x10000) / 0x400, by omega⟩
  let w : Fin 0x800 := ⟨0x400 + (c.toNat - 0x10000) % 0x400, by omega⟩
  have hu : u.val < 0x400 := by show (c.toNat - 0x10000) / 0x400 < 0x400; omega
  have hw : 0x400 ≤ w.val := Nat.le_add_right ..
  have hunits : units (.char c) = [.ofUnit (CodePoint.surrogate u).toNat, .ofUnit (CodePoint.surrogate w).toNat] := by
    rw [units, if_neg (Nat.not_lt.2 h)]
    show _ = [CodePoint.ofUnit (0xd800 + (c.toNat - 0x10000) / 0x400),
      CodePoint.ofUnit (0xd800 + (0x400 + (c.toNat - 0x10000) % 0x400))]
    rw [← Nat.add_assoc]
  have hvalue : 0x10000 + u.val * 0x400 + (w.val - 0x400) = c.toNat := by
    show 0x10000 + (c.toNat - 0x10000) / 0x400 * 0x400 + (0x400 + (c.toNat - 0x10000) % 0x400 - 0x400) = c.toNat
    omega
  refine ⟨u, w, ?_, hu, ?_⟩
  · rw [hunits, ofUnit_toNat (by show 0xd800 + u.val < _; omega), ofUnit_toNat (by show 0xd800 + w.val < _; omega)]
  · simp [pairChar?, hu, hw, hvalue, Char.ofNat_toNat]

theorem readsAs_pointText (p : CodePoint) : ReadsAs (pointText p) (units p) := by
  cases p with
  | surrogate u =>
    have hlt : (CodePoint.surrogate u).toNat < 0x10000 := by show 0xd800 + u.val < _; omega
    have hread := readsAs_unit hlt
    rwa [ofUnit_toNat hlt] at hread
  | char c =>
    show ReadsAs (charText c) _
    have hascii {c : Char} (hc : c.toNat < 0x80) : units (.char c) = [.char c] := if_pos (by omega)
    unfold charText
    -- escapes of one character, characters as they are, and all others by their units
    split_ifs with hquote hline hreturn htab hform hback hplain
    · simp only [Bool.or_eq_true, beq_iff_eq] at hquote
      rcases hquote with rfl | rfl <;> exact readsAs_escape (by decide) rfl
    · rw [beq_iff_eq] at hline
      exact hline ▸ readsAs_escape (by decide) rfl
    · rw [beq_iff_eq] at hreturn
      exact hreturn ▸ readsAs_escape (by decide) rfl
    · rw [beq_iff_eq] at htab
      exact htab ▸ readsAs_escape (by decide) rfl
    · rw [beq_iff_eq] at hform
      exact hform ▸ readsAs_escape (by decide) rfl
    · rw [beq_iff_eq] at hback
      exact hback ▸ readsAs_escape (by decide) rfl
    · simp only [Bool.or_eq_true, beq_iff_eq, not_or] at hquote
      simp only [Bool.and_eq_true, decide_eq_true_eq] at hplain
      rw [hascii (by omega)]
      exact readsAs_plain hquote.1 hquote.2 hplain.1
    · unfold unitEscapes
      by_cases hn : c.toNat < 0x10000
      · rw [if_pos hn, units_of_lt (p := .char c) hn, ← ofUnit_toNat (p := .char c) hn]
        exact readsAs_unit hn
      · have hvalid : c.toNat < 0xd800 ∨ 0xdfff < c.toNat ∧ c.toNat < 0x110000 := c.valid
        simp only [if_neg hn, units]
        exact (readsAs_unit (by omega)).append (readsAs_unit (by omega))

theorem readsAs_nil : ReadsAs [] [] := by
  intro start pos tail _
  show stringPoints start pos tail = (stringPoints start pos tail).map fun r => (r.1, r.2)
  cases stringPoints start pos tail <;> rfl

theorem readsAs_flatMap (s : Text) : ReadsAs (s.flatMap pointText) (s.flatMap units) := by
  induction s with
  | nil => exact readsAs_nil
  | cons p s ih => exact (readsAs_pointText p).append ih

@[simp] theorem joinPairs_char (c : Char) (s : Text) : joinPairs (.char c :: s) = .char c :: joinPairs s := by
  rw [joinPairs.eq_def]

theorem joinPairs_pair {u w : Fin 0x800} {c : Char} (h : pairChar? u w = some c) (s : Text) :
    joinPairs (.surrogate u :: .surrogate w :: s) = .char c :: joinPairs s := by
  rw [joinPairs.eq_def]
  simp [h]

theorem joinPairs_apart {u w : Fin 0x800} (h : pairChar? u w = none) (s : Text) :
    joinPairs (.surrogate u :: .surrogate w :: s) = .surrogate u :: joinPairs (.surrogate w :: s) := by
  rw [joinPairs.eq_def]
  simp [h]

@[simp] theorem joinPairs_surrogate_char (u : Fin 0x800) (c : Char) (s : Text) :
    joinPairs (.surrogate u :: .char c :: s) = .surrogate u :: .char c :: joinPairs s := by
  rw [joinPairs.eq_def]
  simp

@[simp] theorem joinPairs_units_char (c : Char) (s : Text) :
    joinPairs (units (.char c) ++ s) = .char c :: joinPairs s := by
  rcases Nat.lt_or_ge c.toNat 0x10000 with hc | hc
  · simp [units_of_lt (p := .char c) hc]
  · obtain ⟨u, w, hunits, -, hpair⟩ := exists_units_char hc
    rw [hunits, List.cons_append, List.singleton_append, joinPairs_pair hpair]

theorem joinPairs_surrogate_units_char (u : Fin 0x800) (c : Char) (s : Text) :
    joinPairs (.surrogate u :: (units (.char c) ++ s)) = .surrogate u :: .char c :: joinPairs s := by
  rcases Nat.lt_or_ge c.toNat 0x10000 with hc | hc
  · simp [units_of_lt (p := .char c) hc]
  · obtain ⟨v, w, hunits, hv, hpair⟩ := exists_units_char hc
    have hapart : pairChar? u v = none := by simp [pairChar?, hv]
    rw [hunits, List.cons_append, List.singleton_append, joinPairs_apart hapart, joinPairs_pair hpair]

@[simp] theorem joinPairs_units (s : Text) : joinPairs (s.flatMap units) = joinPairs s := by
  induction s using joinPairs.induct with
  | case1 u w s c h ih =>
    rw [joinPairs_pair h, ← ih]
    exact joinPairs_pair h _
  | case2 u w s h ih =>
    rw [joinPairs_apart h, ← ih]
    exact joinPairs_apart h _
  | case3 p s hpair ih =>
    cases p with
    | char c =>
      rw [joinPairs_char, ← ih]
      exact joinPairs_units_char c _
    | surrogate u =>
      cases s with
      | nil => rfl
      | cons q s =>
        cases q with
        | surrogate w => exact absurd rfl (hpair u w s rfl)
        | char c =>
          have ih : joinPairs (s.flatMap units) = joinPairs s := by simpa using ih
          rw [joinPairs_surrogate_char, ← ih]
          exact joinPairs_surrogate_units_char u c _
  | case4 => rfl

/-- No two surrogates stand side by side that make a character. -/
def IsJoined (s : Text) : Prop := joinPairs s = s

instance (s : Text) : Decidable (IsJoined s) := inferInstanceAs (Decidable (joinPairs s = s))

theorem isJoined_ofChars (cs : List Char) : IsJoined (Text.ofChars cs) := by
  induction cs with
  | nil => rfl
  | cons c cs ih => simpa [IsJoined] using ih

theorem joinPairs_surrogate_joinPairs {u w : Fin 0x800} (h : pairChar? u w = none) (s : Text) :
    joinPairs (.surrogate u :: joinPairs (.surrogate w :: s)) =
      .surrogate u :: joinPairs (joinPairs (.surrogate w :: s)) := by
  cases s with
  | nil => exact joinPairs_apart h []
  | cons q s =>
    cases q with
    | char c => simp [joinPairs_apart h]
    | surrogate v =>
      cases hv : pairChar? w v with
      | none => rw [joinPairs_apart hv, joinPairs_apart h]
      | some c => simp [joinPairs_pair hv]

theorem isJoined_joinPairs (s : Text) : IsJoined (joinPairs s) := by
  unfold IsJoined
  induction s using joinPairs.induct with
  | case1 u w s c h ih => simp [joinPairs_pair h, ih]
  | case2 u w s h ih => rw [joinPairs_apart h, joinPairs_surrogate_joinPairs h, ih]
  | case3 p s hpair ih =>
    cases p with
    | char c => simp [ih]
    | surrogate u =>
      cases s with
      | nil => rfl
      | cons q s =>
        cases q with
        | surrogate w => exact absurd rfl (hpair u w s rfl)
        | char c =>
          simpa using ih
  | case4 => rfl

/-- A string is read from its text with its pairs joined. -/
theorem scanString_stringText (start : Nat) (s : Text) (rest : List Char) :
    scanString start (s.flatMap pointText ++ '\x22' :: rest) =
      (.string (joinPairs s), (s.flatMap pointText).length + 1) := by
  have hclose (pos : Nat) : stringPoints start pos ('\x22' :: rest) = .ok ([], pos + 1) := by
    rw [stringPoints.eq_def]
    rfl
  have hpoints : stringPoints start (start + 1) (s.flatMap pointText ++ '\x22' :: rest) =
      .ok (s.flatMap units, start + 1 + (s.flatMap pointText).length + 1) := by
    rw [readsAs_flatMap s start (start + 1) _ (List.cons_ne_nil _ _), hclose]
    simp [Except.map]
  unfold scanString
  simp only [hpoints, joinPairs_units, Prod.mk.injEq, true_and]
  omega

end Criteria.Json
