import Criteria.Proofs.Comparison
import Criteria.Proofs.DecimalNumeral

namespace Criteria
open Numeral Json Binary64

namespace Scaled

@[simp] theorem value_ofInt (n : ℤ) : (ofInt n).value = n := by
  have hmagnitude : (ofInt n).magnitude = ((n.natAbs : ℤ) : ℚ) := by simp [magnitude, ofInt]
  by_cases hn : n < 0
  · have hnegative : (ofInt n).negative = true := decide_eq_true hn
    rw [value, hnegative, if_pos rfl, hmagnitude, ← Int.cast_neg, show -(n.natAbs : ℤ) = n by omega]
  · have hnegative : (ofInt n).negative = false := decide_eq_false hn
    rw [value, hnegative, if_neg Bool.false_ne_true, hmagnitude, show (n.natAbs : ℤ) = n by omega]

theorem value_congr {x y : Scaled} (hn : x.negative = y.negative) (hm : x.magnitude = y.magnitude) :
    x.value = y.value := by
  rw [value, value, hn, hm]

end Scaled

namespace Numeral
variable {cs digits exponent ds whole fraction : List Char} {negative : Bool} {n k m : ℕ} {e : ℤ} {x y : Scaled}

/-- A text denotes one decimal at most. -/
theorem Denotes.unique (hx : Denotes cs x) (hy : Denotes cs y) : x = y := by
  have h := (decimal?_eq_finite_iff.2 hx).symm.trans (decimal?_eq_finite_iff.2 hy)
  cases h
  rfl

theorem signText_signText (negative : Bool) : SignText (Decimal.signText negative) negative := by
  cases negative
  · exact .none
  · exact .minus

theorem signText_marked (negative : Bool) : SignText [if negative then '-' else '+'] negative := by
  cases negative
  · exact .plus
  · exact .minus

theorem exponentText_exponentText (e : ℤ) : ExponentText (Decimal.exponentText e) e := by
  have htext := @ExponentText.marked 'E' _ _ _ (.inr rfl) (signText_marked (decide (e < 0))) Nat.toDigits_ne_nil
    fun _ hc => isDigit_of_mem_toDigits (n := e.natAbs) hc
  have hvalue : (if decide (e < 0) then -(e.natAbs : ℤ) else e.natAbs) = e := by
    split
    · next he =>
      have := of_decide_eq_true he
      omega
    · next he =>
      have := mt decide_eq_true he
      omega
  rw [Nat.ofDigitChars_ten_toDigits, hvalue] at htext
  simpa [Decimal.exponentText] using htext

theorem digitsText_fractionText (hw : IsWhole whole) (hf : ∀ c ∈ fraction, c.isDigit = true) :
    DigitsText (whole ++ fractionText fraction) (Nat.ofDigitChars 10 (whole ++ fraction) 0) fraction.length := by
  cases fraction with
  | nil =>
    show DigitsText (whole ++ []) (Nat.ofDigitChars 10 (whole ++ []) 0) 0
    rw [List.append_nil]
    exact .whole hw.ne_nil hw.digits
  | cons c cs =>
    have hd : ∀ d ∈ whole ++ c :: cs, d.isDigit = true := List.forall_mem_append.2 ⟨hw.digits, hf⟩
    exact .point (by simp) hd

theorem DecimalText.of_parts (hd : DigitsText digits n k) (he : ExponentText exponent e)
    (hx : x.coefficient = n ∧ x.exponent = e - k) :
    DecimalText (Decimal.signText x.negative ++ (digits ++ exponent)) x := by
  obtain ⟨negative, c, place⟩ := x
  obtain ⟨rfl, rfl⟩ : c = n ∧ place = e - k := hx
  exact .mk (signText_signText negative) hd he

theorem inRange_of_small (ha : x.adjusted ≤ 10000) (he : -10000 ≤ x.exponent) : Decimal.inRange x = true := by
  have hmax : (10000 : ℤ) ≤ Decimal.maxAdjusted := by decide
  have hmin : Decimal.minExponent ≤ -10000 := by decide
  rw [Decimal.inRange, Bool.and_eq_true, decide_eq_true_eq, decide_eq_true_eq]
  exact ⟨ha.trans hmax, hmin.trans he⟩

theorem digitsText_split (hne : ds ≠ []) (hd : ∀ c ∈ ds, c.isDigit = true) (i : ℕ) :
    DigitsText (ds.take i ++ '.' :: ds.drop i) (Nat.ofDigitChars 10 ds 0) (ds.length - i) := by
  have htext := @DigitsText.point (ds.take i) (ds.drop i)
  rw [List.take_append_drop, List.length_drop] at htext
  exact htext hne hd

theorem digitsText_zeros (hd : ∀ c ∈ ds, c.isDigit = true) (i : ℕ) :
    DigitsText ('0' :: '.' :: (List.replicate i '0' ++ ds)) (Nat.ofDigitChars 10 ds 0) (i + ds.length) := by
  have hzeros : ∀ c ∈ List.replicate i '0' ++ ds, c.isDigit = true :=
    List.forall_mem_append.2 ⟨fun _ => isDigit_of_mem_replicate, hd⟩
  have htext := @DigitsText.point ['0'] (List.replicate i '0' ++ ds) (by simp) (List.forall_mem_cons.2 ⟨rfl, hzeros⟩)
  have hvalue : Nat.ofDigitChars 10 (['0'] ++ (List.replicate i '0' ++ ds)) 0 = Nat.ofDigitChars 10 ds 0 := by
    rw [Nat.ofDigitChars_append, Nat.ofDigitChars_append, Nat.ofDigitChars_replicate_zero]
    rfl
  rw [hvalue, List.length_append, List.length_replicate] at htext
  exact htext

/-- A decimal is what its text stands for. -/
theorem decimalText_finiteText (x : Scaled) : DecimalText (Decimal.finiteText x) x := by
  have hd : ∀ c ∈ Nat.toDigits 10 x.coefficient, c.isDigit = true := fun _ => isDigit_of_mem_toDigits
  have hpos : 0 < (Nat.toDigits 10 x.coefficient).length := Nat.length_toDigits_pos
  have hne : Nat.toDigits 10 x.coefficient ≠ [] := Nat.toDigits_ne_nil
  have hvalue : x.coefficient = Nat.ofDigitChars 10 (Nat.toDigits 10 x.coefficient) 0 :=
    Nat.ofDigitChars_ten_toDigits.symm
  unfold Decimal.finiteText
  simp only
  generalize Nat.toDigits 10 x.coefficient = ds at *
  -- positional while the point stands among the digits or fewer than six places in front of them
  by_cases hplace : x.exponent ≤ 0 ∧ -6 < x.exponent + ds.length
  · rw [if_pos (by simpa using hplace)]
    by_cases hbehind : x.exponent + ds.length ≤ 0
    · rw [if_pos hbehind]
      simpa using DecimalText.of_parts (digitsText_zeros hd _) .none ⟨hvalue, by omega⟩
    · rw [if_neg hbehind]
      by_cases hzero : x.exponent = 0
      · rw [if_pos hzero]
        simpa using DecimalText.of_parts (.whole hne hd) .none ⟨hvalue, by omega⟩
      · rw [if_neg hzero]
        simpa using DecimalText.of_parts (digitsText_split hne hd _) .none ⟨hvalue, by omega⟩
  · rw [if_neg (by simpa using hplace)]
    have hmantissa : DigitsText (if ds.length = 1 then ds else ds.take 1 ++ '.' :: ds.drop 1)
        (Nat.ofDigitChars 10 ds 0) (ds.length - 1) := by
      by_cases hone : ds.length = 1
      · rw [if_pos hone, hone]
        exact .whole hne hd
      · rw [if_neg hone]
        exact digitsText_split hne hd 1
    have hexponent : ExponentText (if x.exponent + ds.length = 1 then []
        else Decimal.exponentText (x.exponent + ds.length - 1)) (x.exponent + ds.length - 1) := by
      by_cases hone : x.exponent + ds.length = 1
      · rw [if_pos hone, hone]
        exact .none
      · rw [if_neg hone]
        exact exponentText_exponentText _
    exact .of_parts hmantissa hexponent ⟨hvalue, by omega⟩

theorem denotes_toString {k : ℤ} (h : IsShort k) : Denotes (toString k).toList (.ofInt k) := by
  have hdigits : DigitsText (Nat.toDigits 10 k.natAbs) k.natAbs 0 := by
    have htext := DigitsText.whole (Nat.toDigits_ne_nil (b := 10) (n := k.natAbs))
      fun _ hc => isDigit_of_mem_toDigits hc
    rwa [Nat.ofDigitChars_ten_toDigits] at htext
  have hrange : Decimal.inRange (.ofInt k) = true := by
    have hlong : digitCount k.natAbs ≤ 4300 := h
    have hplace : (Scaled.ofInt k).adjusted = 0 + digitCount k.natAbs - 1 := rfl
    refine inRange_of_small ?_ ?_
    · omega
    · show (-10000 : ℤ) ≤ 0
      decide
  have htext : DecimalText _ (.ofInt k) := .of_parts hdigits .none ⟨rfl, rfl⟩
  rw [List.append_nil] at htext
  rw [toList_toString]
  exact htext.denotes hrange

theorem exists_decimalText {text : List Char} {q : ℚ} (h : FloatText text q) (negative : Bool) :
    ∃ x : Scaled, DecimalText (Decimal.signText negative ++ text) x ∧ x.negative = negative ∧ x.magnitude = q ∧
      digitCount x.coefficient ≤ text.length := by
  have hcount {whole fraction : List Char} (hw : IsWhole whole) (hf : ∀ c ∈ fraction, c.isDigit = true) :
      digitCount (Nat.ofDigitChars 10 (whole ++ fraction) 0) ≤ (whole ++ fractionText fraction).length := by
    have hle := digitCount_ofDigitChars_le (List.append_ne_nil_of_left_ne_nil hw.ne_nil fraction)
      (List.forall_mem_append.2 ⟨hw.digits, hf⟩)
    refine hle.trans ?_
    rw [List.length_append, List.length_append, length_fractionText]
    split
    · next hempty => simp [List.isEmpty_iff.1 hempty]
    · omega
  cases h with
  | @fraction whole fraction hw hf hne =>
    let x : Scaled := ⟨negative, Nat.ofDigitChars 10 (whole ++ fraction) 0, -(fraction.length : ℤ)⟩
    have htext := DecimalText.of_parts (x := x) (digitsText_fractionText hw hf) .none ⟨rfl, (zero_sub _).symm⟩
    rw [List.append_nil] at htext
    exact ⟨x, htext, rfl, rfl, hcount hw hf⟩
  | @exponent whole fraction ds hw hf below hd hne =>
    let x : Scaled := ⟨negative, Nat.ofDigitChars 10 (whole ++ fraction) 0,
      (if below then -(Nat.ofDigitChars 10 ds 0 : ℤ) else Nat.ofDigitChars 10 ds 0) - fraction.length⟩
    have hexponent := @ExponentText.marked 'e' _ _ _ (.inl rfl) (signText_marked below) hne hd
    have htext := DecimalText.of_parts (x := x) (digitsText_fractionText hw hf) hexponent ⟨rfl, rfl⟩
    exact ⟨x, by simpa using htext, rfl, rfl, (hcount hw hf).trans (List.prefix_append _ _).length_le⟩

theorem length_positional_le (ds : List Char) (leading : ℤ) :
    (positional ds leading).length ≤ ds.length + leading.natAbs + 3 := by
  unfold positional
  split
  · simp only [List.length_append, List.length_cons, List.length_replicate]
    omega
  · simp only [List.length_append, List.length_cons, List.length_replicate, List.length_take]
    split
    · simp only [List.length_singleton]
      omega
    · rw [List.length_drop]
      omega

theorem length_scientific_le (layout : Layout) (ds : List Char) (leading : ℤ) :
    (scientific layout ds leading).length ≤ ds.length + layout.exponentWidth + digitCount leading.natAbs + 3 := by
  have hmantissa : (if ds.length = 1 then ds else ds.take 1 ++ '.' :: ds.drop 1).length ≤ ds.length + 1 := by
    split
    · omega
    · rw [List.length_append, List.length_take, List.length_cons, List.length_drop]
      omega
  unfold scientific
  simp only [List.length_append, List.length_cons, List.length_replicate, digitCount]
  omega

theorem length_shortest_le (hm : m ≠ 0) (hf : Fits m e) (layout : Layout) (hw : layout.exponentWidth ≤ 10) :
    let x := shortest m e
    let ds := significantDigits x.coefficient
    (if layout.positionalFrom ≤ x.adjusted && x.adjusted < layout.positionalBelow then positional ds x.adjusted
      else scientific layout ds x.adjusted).length ≤ 2000 := by
  intro x ds
  obtain ⟨hc, hlow, hhigh⟩ : x.coefficient ≠ 0 ∧ -400 ≤ x.adjusted ∧ x.adjusted ≤ 400 :=
    adjusted_of_inInterval hm hf (shortest_inInterval hm).2
  have hexponent : -1074 ≤ x.exponent := exponent_shortest hm hf
  have hcount : (digitCount x.coefficient : ℤ) = x.adjusted - x.exponent + 1 := by
    unfold Scaled.adjusted
    ring
  have hds : ds.length ≤ digitCount x.coefficient := by
    obtain ⟨-, t, ht⟩ := toDigits_eq_significantDigits hc
    rw [digitCount, ht, List.length_append]
    exact Nat.le_add_right _ _
  split
  · have := length_positional_le ds x.adjusted
    omega
  · have hleading : digitCount x.adjusted.natAbs ≤ 3 := (Scaled.digitCount_le_iff (by decide)).2 (by omega)
    have := length_scientific_le layout ds x.adjusted
    omega

/-- The text of a double denotes a decimal with the value that is shown. -/
theorem denotes_text (negative : Bool) (hf : Fits m e) :
    ∃ x y, (Binary64.finite negative m e hf).shown? = some (.finite x) ∧
      Denotes (Binary64.finite negative m e hf).text.toList y ∧ y.value = x.value := by
  by_cases hm : m = 0
  · subst hm
    let y : Scaled := ⟨negative, 0, -1⟩
    have hdigits : DigitsText (positional ['0'] 0) 0 1 :=
      @digitsText_split ['0', '0'] (by decide) (fun _ => isDigit_of_mem_replicate (n := 2)) 1
    have htext := DecimalText.of_parts (x := y) hdigits .none ⟨rfl, rfl⟩
    rw [List.append_nil] at htext
    refine ⟨⟨negative, 0, 0⟩, y, rfl, ?_, Scaled.value_congr rfl ?_⟩
    · rw [Binary64.text, Binary64.format, if_pos rfl, toList_signed]
      have hplace : (-1 : ℤ) + digitCount 0 - 1 ≤ 10000 := by decide
      have hpoint : (-10000 : ℤ) ≤ -1 := by decide
      exact htext.denotes (inRange_of_small hplace hpoint)
    · simp [Scaled.magnitude, y]
  · obtain ⟨-, hinside⟩ := shortest_inInterval (e := e) hm
    obtain ⟨y, htext, hsign, hvalue, hcount⟩ := exists_decimalText (floatText_shortest hm textLayout) negative
    -- the value alone does not bound the place of the last digit, the length of the text does
    have hlength := hcount.trans (length_shortest_le hm hf textLayout (by decide))
    rw [← hvalue] at hinside
    obtain ⟨-, hlow, hhigh⟩ := adjusted_of_inInterval hm hf hinside
    have hplace : y.adjusted = y.exponent + digitCount y.coefficient - 1 := rfl
    refine ⟨{ shortest m e with negative }, y, ?_, ?_, Scaled.value_congr hsign hvalue⟩
    · rw [Binary64.shown?, if_neg hm]
    · rw [Binary64.text, Binary64.format, if_neg hm, toList_signed]
      exact htext.denotes (inRange_of_small (by omega) (by omega))

end Numeral

/-- What a number counts as beside a text. An integer that has a text and a finite decimal count as themselves, a
double as what its text denotes. -/
inductive Number.CountsAs : Number → ℚ → Prop
  | int {n : ℤ} : IsShort n → CountsAs (.int n) n
  | decimal {x : Scaled} : CountsAs (.decimal (.finite x)) x.value
  | float {x : Binary64} {y : Scaled} : Denotes x.text.toList y → CountsAs (.float x) y.value

namespace Number
variable {n : Number} {q : ℚ} {m : ℕ} {e : ℤ}

theorem exists_countsAs_float (negative : Bool) (hf : Fits m e) :
    ∃ q, CountsAs (.float (.finite negative m e hf)) q := by
  obtain ⟨-, y, -, htext, -⟩ := denotes_text negative hf
  exact ⟨_, .float htext⟩

theorem CountsAs.text (h : n.CountsAs q) (hrange : ∀ x, n = .decimal (.finite x) → Decimal.inRange x = true) :
    ∃ t y, n.text = .ok t ∧ Denotes t.toList y ∧ y.value = q := by
  cases h with
  | @int k hk =>
    exact ⟨toString k, .ofInt k, integerText_of_isShort hk, denotes_toString hk, Scaled.value_ofInt k⟩
  | @decimal x =>
    refine ⟨_, x, rfl, ?_, rfl⟩
    show Denotes (String.ofList (Decimal.finiteText x)).toList x
    rw [String.toList_ofList]
    exact (decimalText_finiteText x).denotes (hrange x rfl)
  | float htext => exact ⟨_, _, rfl, htext, rfl⟩

theorem CountsAs.reading (h : n.CountsAs q) :
    ∃ x : Scaled, (Value.number n).reading = .ok (.finite x) ∧ x.value = q := by
  cases h with
  | @int k hk =>
    refine ⟨.ofInt k, ?_, Scaled.value_ofInt k⟩
    show (integerText k).map _ = _
    rw [integerText_of_isShort hk]
    rfl
  | decimal => exact ⟨_, rfl, rfl⟩
  | @float x y htext =>
    cases x with
    | finite negative m e hf =>
      -- what is read may differ from what the text denotes in the zeros at the end, so only in form
      obtain ⟨x, y', hshown, htext', hvalue⟩ := denotes_text negative hf
      refine ⟨x, ?_, by rw [← hvalue, htext'.unique htext]⟩
      show Except.ok (Reading.ofExtended? (Binary64.finite negative m e hf).shown?) = _
      rw [hshown]
      rfl
    | infinity negative =>
      have hread : decimal? (Binary64.infinity negative).text.toList = some (.infinity negative) := by
        cases negative <;> decide
      exact nomatch hread.symm.trans (decimal?_eq_finite_iff.2 htext)
    | nan =>
      have hread : decimal? Binary64.nan.text.toList = some (.nan false false 0) := by decide
      exact nomatch hread.symm.trans (decimal?_eq_finite_iff.2 htext)

end Number

/-- A text denotes a decimal if it is made of the characters of a numeral. -/
def Text.Denotes (s : Text) (y : Scaled) : Prop := ∃ cs, s = .ofChars cs ∧ Numeral.Denotes cs y

section Texts
variable {s : Text} {y : Scaled}

theorem Text.denotes_iff : s.Denotes y ↔ s.chars?.bind decimal? = some (.finite y) := by
  simp only [Text.Denotes, Option.bind_eq_some_iff, Text.chars?_eq_some_iff, decimal?_eq_finite_iff]

theorem reading_text (s : Text) :
    (Value.text s).reading = match s.chars?.bind decimal? with
      | some d => .ok (.ofExtended? (Number.decimal d).extended?)
      | none => .ok .notNumeric := rfl

theorem reading_of_denotes (h : s.Denotes y) : (Value.text s).reading = .ok (.finite y) := by
  rw [reading_text, Text.denotes_iff.1 h]
  rfl

/-- A text that denotes no decimal is read as none. -/
theorem reading_of_not_denotes (h : ∀ y, ¬s.Denotes y) :
    (Value.text s).reading = .ok .notNumeric ∨ (Value.text s).reading = .ok .notFinite := by
  rw [reading_text]
  cases hd : s.chars?.bind decimal? with
  | none => exact .inl rfl
  | some d =>
    cases d with
    | finite y => exact absurd (Text.denotes_iff.2 hd) (h y)
    | infinity => exact .inr rfl
    | nan => exact .inr rfl

end Texts
end Criteria
