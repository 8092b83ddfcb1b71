import Criteria.Number.Numeral
import Criteria.Proofs.NumberText

namespace Criteria.Numeral
open Text Json
variable {c : Char} {cs ds tail whole fraction : List Char} {negative : Bool} {n k : ℕ} {e : ℤ} {x : Scaled}

/-- A sign or none, and whether it is a minus. -/
inductive SignText : List Char → Bool → Prop
  | none : SignText [] false
  | plus : SignText ['+'] false
  | minus : SignText ['-'] true

/-- Digits with or without a point: the number they make, and how many stand behind the point. -/
inductive DigitsText : List Char → ℕ → ℕ → Prop
  | whole {ds : List Char} : ds ≠ [] → (∀ c ∈ ds, c.isDigit = true) → DigitsText ds (Nat.ofDigitChars 10 ds 0) 0
  | point {whole fraction : List Char} : whole ++ fraction ≠ [] → (∀ c ∈ whole ++ fraction, c.isDigit = true) →
    DigitsText (whole ++ '.' :: fraction) (Nat.ofDigitChars 10 (whole ++ fraction) 0) fraction.length

/-- An exponent or none: a mark, a sign and digits. -/
inductive ExponentText : List Char → ℤ → Prop
  | none : ExponentText [] 0
  | marked {mark : Char} {sign ds : List Char} {negative : Bool} : mark = 'e' ∨ mark = 'E' → SignText sign negative →
    ds ≠ [] → (∀ c ∈ ds, c.isDigit = true) →
    ExponentText (mark :: (sign ++ ds))
      (if negative then -(Nat.ofDigitChars 10 ds 0 : ℤ) else Nat.ofDigitChars 10 ds 0)

/-- A numeral in ASCII, and the decimal it stands for. -/
inductive DecimalText : List Char → Scaled → Prop
  | mk {sign digits exponent : List Char} {negative : Bool} {n k : ℕ} {e : ℤ} : SignText sign negative →
    DigitsText digits n k → ExponentText exponent e →
    DecimalText (sign ++ (digits ++ exponent)) ⟨negative, n, e - k⟩

/-- A text that spells another: it has underscores between, and digits of any script in place of those in ASCII. -/
inductive Spells : List Char → List Char → Prop
  | nil : Spells [] []
  | underscore {cs ds : List Char} : Spells cs ds → Spells ('_' :: cs) ds
  | digit {c : Char} {d : ℕ} {cs ds : List Char} : digitValue? c = some d → Spells cs ds →
    Spells (c :: cs) (Nat.digitChar d :: ds)
  | other {c : Char} {cs ds : List Char} : c ≠ '_' → digitValue? c = none → Spells cs ds → Spells (c :: cs) (c :: ds)

/-- A text that denotes a finite decimal within range. -/
inductive Denotes : List Char → Scaled → Prop
  | mk {before body after text : List Char} {x : Scaled} : (∀ c ∈ before, isBlank c = true) →
    (∀ c ∈ after, isBlank c = true) → Spells body text → DecimalText text x → Decimal.inRange x = true →
    Denotes (before ++ (body ++ after)) x

theorem dropWhile_isDigit_append (hd : ∀ c ∈ ds, c.isDigit = true) (ht : ∀ c ∈ tail.head?, c.isDigit = false) :
    (ds ++ tail).dropWhile Char.isDigit = tail := by
  have h := List.takeWhile_append_dropWhile (p := Char.isDigit) (l := ds ++ tail)
  rw [takeWhile_isDigit_append hd ht] at h
  exact List.append_cancel_left h

theorem isDigit_head_dropWhile (cs : List Char) : ∀ c ∈ (cs.dropWhile Char.isDigit).head?, c.isDigit = false := by
  intro c hc
  have h := List.head?_dropWhile_not Char.isDigit cs
  rw [Option.mem_def.1 hc] at h
  exact h

theorem exists_digits_append (cs : List Char) : ∃ ds tail, cs = ds ++ tail ∧ (∀ c ∈ ds, c.isDigit = true) ∧
    ∀ c ∈ tail.head?, c.isDigit = false :=
  ⟨_, _, List.takeWhile_append_dropWhile.symm, fun _ hc => List.mem_takeWhile_imp hc, isDigit_head_dropWhile cs⟩

theorem takeSign_append (hs : SignText ds negative) (ht : ∀ c ∈ tail.head?, c ≠ '+' ∧ c ≠ '-') :
    takeSign (ds ++ tail) = (negative, tail) := by
  cases hs with
  | none =>
    show takeSign tail = _
    unfold takeSign
    split
    · exact absurd rfl (ht '-' rfl).2
    · exact absurd rfl (ht '+' rfl).1
    · rfl
  | plus => rfl
  | minus => rfl

theorem exists_sign_append (cs : List Char) : ∃ sign, SignText sign (takeSign cs).1 ∧ cs = sign ++ (takeSign cs).2 := by
  unfold takeSign
  split
  · exact ⟨['-'], .minus, rfl⟩
  · exact ⟨['+'], .plus, rfl⟩
  · exact ⟨[], .none, rfl⟩

theorem ne_sign_of_isDigit (h : c.isDigit = true) : c ≠ '+' ∧ c ≠ '-' := by
  constructor <;> rintro rfl <;> exact nomatch h

theorem isDigit_head (hd : ∀ c ∈ ds, c.isDigit = true) : ∀ c ∈ ds.head?, c.isDigit = true :=
  fun c hc => hd c (List.mem_of_mem_head? hc)

theorem toLower_eq_e : c.toLower = 'e' ↔ c = 'e' ∨ c = 'E' := by
  constructor
  · intro h
    unfold Char.toLower at h
    split at h
    · have hval : c.val + 32 = 'E'.val + 32 := congrArg Char.val h
      exact .inr (Char.ext ((UInt32.add_left_inj 32).1 hval))
    · exact .inl h
  · rintro (rfl | rfl) <;> rfl

theorem exponent?_cons (c : Char) (cs : List Char) :
    exponent? (c :: cs) =
      if c.toLower = 'e' then
        if (takeSign cs).2.isEmpty || !(takeSign cs).2.all Char.isDigit then none
        else some (if (takeSign cs).1 then -(Nat.ofDigitChars 10 (takeSign cs).2 0 : ℤ)
          else Nat.ofDigitChars 10 (takeSign cs).2 0)
      else none := rfl

theorem exponent?_eq_some_iff : exponent? cs = some e ↔ ExponentText cs e := by
  constructor
  · intro h
    cases cs with
    | nil =>
      obtain rfl : 0 = e := Option.some.inj h
      exact .none
    | cons c cs =>
      rw [exponent?_cons] at h
      -- what begins with no mark is no exponent; behind a mark and a sign there must be digits
      by_cases hc : c.toLower = 'e'
      · rw [if_pos hc] at h
        by_cases hds : ((takeSign cs).2.isEmpty || !(takeSign cs).2.all Char.isDigit) = true
        · rw [if_pos hds] at h
          exact nomatch h
        · rw [if_neg hds] at h
          rw [Bool.or_eq_true, not_or, Bool.not_eq_true, List.isEmpty_eq_false_iff, Bool.not_eq_true,
            Bool.not_eq_false', List.all_eq_true] at hds
          obtain ⟨sign, hsign, hcs⟩ := exists_sign_append cs
          rw [← Option.some.inj h]
          conv_lhs => rw [hcs]
          exact .marked (toLower_eq_e.1 hc) hsign hds.1 hds.2
      · rw [if_neg hc] at h
        exact nomatch h
  · intro h
    cases h with
    | none => rfl
    | @marked mark sign ds negative hmark hsign hne hd =>
      have htake := takeSign_append hsign fun c hc => ne_sign_of_isDigit (isDigit_head hd c hc)
      have hempty : (ds.isEmpty || !ds.all Char.isDigit) = false := by
        rw [List.isEmpty_eq_false_iff.2 hne, List.all_eq_true.2 hd]
        rfl
      rw [exponent?_cons, if_pos (toLower_eq_e.2 hmark), htake, hempty, if_neg Bool.false_ne_true]

theorem ExponentText.head (h : ExponentText cs e) : ∀ c ∈ cs.head?, c.isDigit = false ∧ c ≠ '.' := by
  intro c hc
  cases h with
  | none => exact nomatch hc
  | marked hmark =>
    cases hc
    rcases hmark with rfl | rfl <;> exact ⟨rfl, by decide⟩

theorem finite?_of_whole (hd : ∀ c ∈ whole, c.isDigit = true) (ht : ∀ c ∈ tail.head?, c.isDigit = false ∧ c ≠ '.') :
    finite? negative (whole ++ tail) =
      if whole.isEmpty then none
      else (exponent? tail).map fun e => ⟨negative, Nat.ofDigitChars 10 whole 0, e - (0 : ℕ)⟩ := by
  have hdigit := fun c hc => (ht c hc).1
  unfold finite?
  rw [takeWhile_isDigit_append hd hdigit, dropWhile_isDigit_append hd hdigit]
  cases tail with
  | nil => simp
  | cons c cs =>
    have hc : c ≠ '.' := (ht c rfl).2
    simp [hc]

theorem finite?_of_point (hw : ∀ c ∈ whole, c.isDigit = true) (hf : ∀ c ∈ fraction, c.isDigit = true)
    (ht : ∀ c ∈ tail.head?, c.isDigit = false) :
    finite? negative (whole ++ '.' :: (fraction ++ tail)) =
      if (whole ++ fraction).isEmpty then none
      else (exponent? tail).map fun e =>
        ⟨negative, Nat.ofDigitChars 10 (whole ++ fraction) 0, e - fraction.length⟩ := by
  have hpoint : ∀ c ∈ ('.' :: (fraction ++ tail)).head?, c.isDigit = false := by
    rintro c ⟨⟩
    rfl
  unfold finite?
  rw [takeWhile_isDigit_append hw hpoint, dropWhile_isDigit_append hw hpoint]
  simp only [takeWhile_isDigit_append hf ht, dropWhile_isDigit_append hf ht]

theorem finite?_eq_some_iff :
    finite? negative cs = some x ↔ ∃ digits exponent n k e, DigitsText digits n k ∧ ExponentText exponent e ∧
      cs = digits ++ exponent ∧ x = ⟨negative, n, e - (k : ℕ)⟩ := by
  constructor
  · intro h
    obtain ⟨whole, rest, rfl, hw, hrest⟩ := exists_digits_append cs
    -- the digits go on behind a point, and the value has as many places as stand there
    by_cases hpoint : rest.head? = some '.'
    · obtain ⟨rest, rfl⟩ : ∃ r, rest = '.' :: r := List.head?_eq_some_iff.1 hpoint
      obtain ⟨fraction, tail, rfl, hf, ht⟩ := exists_digits_append rest
      rw [finite?_of_point hw hf ht] at h
      split_ifs at h with hempty
      obtain ⟨e, he, rfl⟩ := Option.map_eq_some_iff.1 h
      have hdigits : ∀ c ∈ whole ++ fraction, c.isDigit = true :=
        fun c hc => (List.mem_append.1 hc).elim (hw c) (hf c)
      exact ⟨_, tail, _, _, e, .point (mt List.isEmpty_iff.2 hempty) hdigits, exponent?_eq_some_iff.1 he, by simp, rfl⟩
    · have hhead : ∀ c ∈ rest.head?, c.isDigit = false ∧ c ≠ '.' :=
        fun c hc => ⟨hrest c hc, fun hc' => hpoint (hc' ▸ hc)⟩
      rw [finite?_of_whole hw hhead] at h
      split_ifs at h with hempty
      obtain ⟨e, he, rfl⟩ := Option.map_eq_some_iff.1 h
      exact ⟨whole, rest, _, _, e, .whole (mt List.isEmpty_iff.2 hempty) hw, exponent?_eq_some_iff.1 he, rfl, rfl⟩
  · rintro ⟨digits, exponent, n, k, e, hd, he, rfl, rfl⟩
    cases hd with
    | whole hne hw =>
      rw [finite?_of_whole hw he.head, if_neg (mt List.isEmpty_iff.1 hne), exponent?_eq_some_iff.2 he]
      rfl
    | @point whole fraction hne hd =>
      rw [List.forall_mem_append] at hd
      rw [List.append_assoc, List.cons_append, finite?_of_point hd.1 hd.2 fun c hc => (he.head c hc).1,
        if_neg (mt List.isEmpty_iff.1 hne), exponent?_eq_some_iff.2 he]
      rfl

theorem special?_eq_none (h : ∀ c ∈ cs.head?, c.isDigit = true ∨ c = '.') : special? negative cs = none := by
  cases cs with
  | nil => rfl
  | cons c cs =>
    -- names are compared in small letters, and what is no letter stays as it is
    have hlower : c.toLower = c := by
      unfold Char.toLower
      rw [dif_neg]
      rcases h c rfl with hd | rfl
      · have := Char.isDigit_iff_toNat.1 hd
        simp only [UInt32.le_iff_toNat_le, ge_iff_le]
        exact fun ⟨hlow, _⟩ => absurd (hlow.trans this.2) (by decide)
      · decide
    have hc : c ≠ 'i' ∧ c ≠ 'n' ∧ c ≠ 's' := by
      rcases h c rfl with hd | rfl
      · refine ⟨?_, ?_, ?_⟩ <;> rintro rfl <;> exact nomatch hd
      · decide
    unfold special?
    rw [List.map_cons, hlower]
    simp [hc]

theorem special?_ne_finite : special? negative cs ≠ some (.finite x) := by
  intro h
  unfold special? at h
  simp only at h
  split at h
  · exact nomatch h
  · exact nomatch h
  · split at h <;> exact nomatch h
  · split at h <;> exact nomatch h
  · exact nomatch h

theorem spells_iff : Spells cs ds ↔ plain cs = ds := by
  constructor
  · intro h
    induction h with
    | nil => rfl
    | underscore _ ih => exact ih
    | @digit c d cs ds hc _ ih =>
      have hne : c ≠ '_' := by
        -- the spelling is found character by character, as the plain form was
        rintro rfl
        exact nomatch hc
      unfold plain at ih ⊢
      rw [List.filter_cons_of_pos (by simpa using hne), List.map_cons, hc, ih]
    | @other c cs ds hne hc _ ih =>
      unfold plain at ih ⊢
      rw [List.filter_cons_of_pos (by simpa using hne), List.map_cons, hc, ih]
  · rintro rfl
    induction cs with
    | nil => exact .nil
    | cons c cs ih =>
      by_cases hne : c = '_'
      · subst hne
        exact .underscore ih
      · unfold plain at ih ⊢
        rw [List.filter_cons_of_pos (by simpa using hne), List.map_cons]
        cases hc : digitValue? c with
        | none => exact .other hne hc ih
        | some d => exact .digit hc ih

section Trim
variable {p : Char → Bool} {before body after : List Char}

theorem dropWhile_eq_self (h : ∀ c ∈ cs, p c = false) : cs.dropWhile p = cs := by
  cases cs with
  | nil => rfl
  | cons c cs => exact List.dropWhile_cons_of_neg (by simp [h c List.mem_cons_self])

theorem trim_append (hb : ∀ c ∈ before, p c = true) (ha : ∀ c ∈ after, p c = true) (hbody : ∀ c ∈ body, p c = false) :
    trim p (before ++ (body ++ after)) = body := by
  have hback : ((body ++ after).reverse.dropWhile p).reverse = body := by
    rw [List.reverse_append, List.dropWhile_append_of_pos fun c hc => ha c (List.mem_reverse.1 hc),
      dropWhile_eq_self fun c hc => hbody c (List.mem_reverse.1 hc), List.reverse_reverse]
  rw [trim, List.dropWhile_append_of_pos hb]
  cases body with
  | nil =>
    rw [List.nil_append, List.dropWhile_eq_nil_iff.2 ha]
    rfl
  | cons c cs => rwa [List.cons_append, List.dropWhile_cons_of_neg (by simp [hbody c List.mem_cons_self])]

theorem exists_trim_append (p : Char → Bool) (cs : List Char) : ∃ before after, cs = before ++ (trim p cs ++ after) ∧
    (∀ c ∈ before, p c = true) ∧ ∀ c ∈ after, p c = true := by
  refine ⟨cs.takeWhile p, ((cs.dropWhile p).reverse.takeWhile p).reverse, ?_, fun c hc => List.mem_takeWhile_imp hc,
    fun c hc => List.mem_takeWhile_imp (List.mem_reverse.1 hc)⟩
  rw [trim, ← List.reverse_append, List.takeWhile_append_dropWhile, List.reverse_reverse,
    List.takeWhile_append_dropWhile]

end Trim

/-- What numerals in ASCII are written with. -/
def InNumeral (c : Char) : Prop := c.isDigit = true ∨ c ∈ ['+', '-', '.', 'e', 'E']

theorem SignText.chars (h : SignText cs negative) : ∀ c ∈ cs, InNumeral c := by
  cases h with
  | none => exact fun c hc => nomatch hc
  | plus => exact List.forall_mem_singleton.2 (.inr (by decide))
  | minus => exact List.forall_mem_singleton.2 (.inr (by decide))

theorem DigitsText.chars (h : DigitsText cs n k) : ∀ c ∈ cs, InNumeral c := by
  cases h with
  | whole _ hd => exact fun c hc => .inl (hd c hc)
  | point _ hd =>
    rw [List.forall_mem_append] at hd
    rw [List.forall_mem_append, List.forall_mem_cons]
    exact ⟨fun c hc => .inl (hd.1 c hc), .inr (by decide), fun c hc => .inl (hd.2 c hc)⟩

theorem ExponentText.chars (h : ExponentText cs e) : ∀ c ∈ cs, InNumeral c := by
  cases h with
  | none => exact fun c hc => nomatch hc
  | marked hmark hsign _ hd =>
    rw [List.forall_mem_cons, List.forall_mem_append]
    refine ⟨.inr ?_, hsign.chars, fun c hc => .inl (hd c hc)⟩
    rcases hmark with rfl | rfl <;> decide

theorem DecimalText.chars (h : DecimalText cs x) : ∀ c ∈ cs, InNumeral c := by
  obtain ⟨hsign, hd, he⟩ := h
  rw [List.forall_mem_append, List.forall_mem_append]
  exact ⟨hsign.chars, hd.chars, he.chars⟩

theorem InNumeral.isBlank (h : InNumeral c) : isBlank c = false := by
  rcases h with hd | hc
  · obtain ⟨hlow, hhigh⟩ : 48 ≤ c.toNat ∧ c.toNat ≤ 57 := Char.isDigit_iff_toNat.1 hd
    simp only [Text.isBlank, isWhiteSpace, Bool.or_eq_false_iff, Bool.and_eq_false_iff, decide_eq_false_iff_not,
      beq_eq_false_iff_ne]
    omega
  · simp only [List.mem_cons, List.not_mem_nil, or_false] at hc
    rcases hc with rfl | rfl | rfl | rfl | rfl <;> rfl

theorem spells_self (h : ∀ c ∈ cs, InNumeral c) : Spells cs cs := by
  induction cs with
  | nil => exact .nil
  | cons c cs ih =>
    rw [List.forall_mem_cons] at h
    rcases h.1 with hd | hc
    · obtain ⟨hlow, hhigh⟩ : 48 ≤ c.toNat ∧ c.toNat ≤ 57 := Char.isDigit_iff_toNat.1 hd
      have hvalue : digitValue? c = some (c.toNat - 48) := by
        unfold digitValue? digitZeros
        rw [List.find?_cons_of_pos (by simp; omega)]
        rfl
      have hchar : Nat.digitChar (c.toNat - 48) = c := by
        apply Char.toNat_inj.1
        rw [Nat.toNat_digitChar_of_lt_ten (by omega)]
        omega
      have hspells := Spells.digit hvalue (ih h.2)
      rwa [hchar] at hspells
    · simp only [List.mem_cons, List.not_mem_nil, or_false] at hc
      rcases hc with rfl | rfl | rfl | rfl | rfl <;> exact .other (by decide) rfl (ih h.2)

theorem DecimalText.denotes (h : DecimalText cs x) (hrange : Decimal.inRange x = true) : Denotes cs x := by
  have hnone : ∀ c ∈ ([] : List Char), Text.isBlank c = true := fun c hc => nomatch hc
  have hdenotes := Denotes.mk hnone hnone (spells_self h.chars) h hrange
  rwa [List.append_nil, List.nil_append] at hdenotes

theorem isBlank_of_digitValue? {d : ℕ} (h : digitValue? c = some d) : isBlank c = false := by
  -- between the ranges that hold the zeros lie all blanks
  have hzeros : ∀ z ∈ digitZeros,
      z = 0x30 ∨ 0x660 ≤ z ∧ z + 10 ≤ 0x1680 ∨ 0x1690 ≤ z ∧ z + 10 ≤ 0x2000 ∨ 0x3001 ≤ z := by
    decide
  obtain ⟨z, hz, -⟩ := Option.map_eq_some_iff.1 h
  have hrange := List.find?_some hz
  have hcases := hzeros z (List.mem_of_find?_eq_some hz)
  simp only [Bool.and_eq_true, decide_eq_true_eq] at hrange
  simp only [isBlank, isWhiteSpace, Bool.or_eq_false_iff, Bool.and_eq_false_iff, decide_eq_false_iff_not,
    beq_eq_false_iff_ne]
  omega

theorem Spells.isBlank (h : Spells cs ds) (hds : ∀ c ∈ ds, isBlank c = false) : ∀ c ∈ cs, isBlank c = false := by
  induction h with
  | nil => exact hds
  | underscore _ ih => exact List.forall_mem_cons.2 ⟨by decide, ih hds⟩
  | digit hc _ ih =>
    rw [List.forall_mem_cons] at hds
    exact List.forall_mem_cons.2 ⟨isBlank_of_digitValue? hc, ih hds.2⟩
  | other _ _ _ ih =>
    rw [List.forall_mem_cons] at hds
    exact List.forall_mem_cons.2 ⟨hds.1, ih hds.2⟩

theorem DigitsText.head (h : DigitsText cs n k) (tail : List Char) :
    ∀ c ∈ (cs ++ tail).head?, c.isDigit = true ∨ c = '.' := by
  intro c hc
  cases h with
  | whole hne hd =>
    rw [List.head?_append_of_ne_nil _ hne] at hc
    exact .inl (isDigit_head hd c hc)
  | @point whole fraction hne hd =>
    cases whole with
    | nil =>
      cases hc
      exact .inr rfl
    | cons d ds =>
      cases hc
      exact .inl (hd _ List.mem_cons_self)

theorem decimal?_eq {signed : Bool × List Char} (hs : takeSign (plain (trim isBlank cs)) = signed) :
    decimal? cs = match special? signed.1 signed.2 with
      | some d => some d
      | none => ((finite? signed.1 signed.2).filter Decimal.inRange).map .finite := by
  subst hs
  rfl

/-- Reading accepts the texts that denote a finite decimal, as the decimal that they denote. -/
theorem decimal?_eq_finite_iff : decimal? cs = some (.finite x) ↔ Denotes cs x := by
  constructor
  · intro h
    obtain ⟨before, after, hcs, hb, ha⟩ := exists_trim_append isBlank cs
    obtain ⟨sign, hsign, htext⟩ := exists_sign_append (plain (trim isBlank cs))
    obtain ⟨negative, tail, hs⟩ : ∃ negative tail, takeSign (plain (trim isBlank cs)) = (negative, tail) := ⟨_, _, rfl⟩
    rw [hs] at hsign htext
    rw [decimal?_eq hs] at h
    cases hspecial : special? negative tail with
    | some d =>
      rw [hspecial] at h
      exact absurd (hspecial.trans h) special?_ne_finite
    | none =>
      rw [hspecial] at h
      obtain ⟨y, hy, hyx⟩ := Option.map_eq_some_iff.1 h
      cases hyx
      obtain ⟨hfinite, hrange⟩ := Option.filter_eq_some_iff.1 hy
      obtain ⟨digits, exponent, n, k, e, hd, he, hbody, rfl⟩ := finite?_eq_some_iff.1 hfinite
      rw [hcs]
      refine .mk hb ha (spells_iff.2 rfl) ?_ hrange
      rw [htext, hbody]
      exact .mk hsign hd he
  · rintro ⟨hb, ha, hspells, htext, hrange⟩
    -- no blank can spell a character of a numeral, so exactly the blanks around it are taken off
    have htrim := trim_append hb ha (hspells.isBlank fun c hc => (htext.chars c hc).isBlank)
    obtain @⟨sign, digits, exponent, negative, n, k, e, hsign, hd, he⟩ := htext
    have hhead := hd.head exponent
    have hsigned : takeSign (sign ++ (digits ++ exponent)) = (negative, digits ++ exponent) := by
      refine takeSign_append hsign fun c hc => ?_
      rcases hhead c hc with hdigit | rfl
      · exact ne_sign_of_isDigit hdigit
      · decide
    rw [← spells_iff.1 hspells, ← htrim] at hsigned
    rw [decimal?_eq hsigned, special?_eq_none hhead, finite?_eq_some_iff.2 ⟨_, _, _, _, _, hd, he, rfl, rfl⟩]
    show ((some _).filter Decimal.inRange).map Decimal.finite = _
    rw [Option.filter_some, if_pos hrange]
    rfl

end Criteria.Numeral
