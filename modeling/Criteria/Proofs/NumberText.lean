import Criteria.Json
import Criteria.Json.Token
import Criteria.Number.Decimal
import Criteria.Proofs.Rounding
import Mathlib.Data.List.TakeWhile

namespace Criteria.Json
open Binary64 Decimal
variable {whole fraction tail rest ds : List Char} {negative : Bool} {n : ℕ}

/-- The digits before a fraction as they are written: a zero, or a run that starts with another digit. -/
structure IsWhole (ds : List Char) : Prop where
  digits : ∀ c ∈ ds, c.isDigit = true
  ne_nil : ds ≠ []
  head : ds.head? = some '0' → ds = ['0']

/-- A text that a number in front of it does not go on with. -/
structure EndsNumber (rest : List Char) : Prop where
  digit : ∀ c ∈ rest.head?, c.isDigit = false
  point : rest.head? ≠ some '.'
  exponent : rest.head? ≠ some 'e' ∧ rest.head? ≠ some 'E'

def fractionText (ds : List Char) : List Char := if ds.isEmpty then [] else '.' :: ds

theorem takeWhile_isDigit_append (hd : ∀ c ∈ ds, c.isDigit = true) (ht : ∀ c ∈ tail.head?, c.isDigit = false) :
    (ds ++ tail).takeWhile Char.isDigit = ds := by
  rw [List.takeWhile_append_of_pos hd]
  cases tail with
  | nil => simp
  | cons c cs => simp [ht c rfl]

theorem wholeDigits_append (hw : IsWhole whole) (ht : ∀ c ∈ tail.head?, c.isDigit = false) :
    wholeDigits (whole ++ tail) = whole := by
  unfold wholeDigits
  rw [List.head?_append_of_ne_nil _ hw.ne_nil]
  split
  · next h => exact (hw.head (beq_iff_eq.1 h)).symm
  · exact takeWhile_isDigit_append hw.digits ht

theorem fractionDigits_append (hf : ∀ c ∈ fraction, c.isDigit = true)
    (ht : ∀ c ∈ tail.head?, c.isDigit = false) (hpoint : tail.head? ≠ some '.') :
    fractionDigits (fractionText fraction ++ tail) = fraction := by
  unfold fractionText
  cases fraction with
  | nil =>
    cases tail with
    | nil => rfl
    | cons c cs =>
      have hc : c ≠ '.' := fun h => hpoint (congrArg some h)
      show fractionDigits (c :: cs) = []
      rw [fractionDigits]
      rintro rest ⟨rfl, -⟩
      exact hc rfl
  | cons d ds => exact takeWhile_isDigit_append hf ht

theorem head?_fractionText_append (fraction : List Char) (ht : ∀ c ∈ tail.head?, c.isDigit = false) :
    ∀ c ∈ (fractionText fraction ++ tail).head?, c.isDigit = false := by
  unfold fractionText
  cases fraction with
  | nil => exact ht
  | cons d ds =>
    intro c hc
    cases hc
    rfl

@[simp] theorem length_fractionText (ds : List Char) :
    (fractionText ds).length = if ds.isEmpty then 0 else ds.length + 1 := by
  cases ds <;> rfl

theorem scanNumber?_parts (negative : Bool) (hw : IsWhole whole) (hf : ∀ c ∈ fraction, c.isDigit = true)
    (ht : ∀ c ∈ tail.head?, c.isDigit = false) (hpoint : tail.head? ≠ some '.') :
    scanNumber? (signText negative ++ (whole ++ (fractionText fraction ++ tail))) =
      let length := (signText negative ++ (whole ++ fractionText fraction)).length
      let coefficient := Nat.ofDigitChars 10 (whole ++ fraction) 0
      (exponentPart? tail).elim
        (if fraction.isEmpty then some (.int negative whole, length)
          else some (.float (ofScaled ⟨negative, coefficient, -(fraction.length : ℤ)⟩), length))
        fun (n, e) => some (.float (ofScaled ⟨negative, coefficient, e - fraction.length⟩), length + n) := by
  have hhead := head?_fractionText_append fraction ht
  have hsign : ((signText negative ++ (whole ++ (fractionText fraction ++ tail))).head? == some '-') = negative := by
    cases negative with
    | true => rfl
    | false =>
      obtain ⟨c, cs, rfl⟩ := List.exists_cons_of_ne_nil hw.ne_nil
      have hc := hw.digits c List.mem_cons_self
      show (some c == some '-') = false
      rw [beq_eq_false_iff_ne]
      rintro ⟨⟩
      exact nomatch hc
  have hbody : (if negative then (signText negative ++ (whole ++ (fractionText fraction ++ tail))).drop 1
      else signText negative ++ (whole ++ (fractionText fraction ++ tail))) =
        whole ++ (fractionText fraction ++ tail) := by cases negative <;> rfl
  have hlength : (if negative then 1 else 0) = (signText negative).length := by cases negative <;> rfl
  have hempty : whole.isEmpty = false := List.isEmpty_eq_false_iff.2 hw.ne_nil
  unfold scanNumber?
  simp only [hsign, hbody, wholeDigits_append hw hhead, hempty, List.drop_left, fractionDigits_append hf ht hpoint,
    hlength, ← length_fractionText, List.length_append, Nat.add_assoc, if_neg Bool.false_ne_true]
  cases exponentPart? tail <;> rfl

theorem exponentPart?_eq_none (h : EndsNumber rest) : exponentPart? rest = none := by
  cases rest with
  | nil => rfl
  | cons c cs =>
    have hsmall : c ≠ 'e' := fun hc => h.exponent.1 (congrArg some hc)
    have hcapital : c ≠ 'E' := fun hc => h.exponent.2 (congrArg some hc)
    unfold exponentPart?
    simp [hsmall, hcapital]

theorem exponentPart?_exponent (hd : ∀ c ∈ ds, c.isDigit = true) (hne : ds ≠ [])
    (ht : ∀ c ∈ tail.head?, c.isDigit = false) :
    exponentPart? ('e' :: (if negative then '-' else '+') :: (ds ++ tail)) =
      some (ds.length + 2, if negative then -(Nat.ofDigitChars 10 ds 0 : ℤ) else Nat.ofDigitChars 10 ds 0) := by
  have hempty : ds.isEmpty = false := List.isEmpty_eq_false_iff.2 hne
  unfold exponentPart?
  cases negative
  · simp [takeWhile_isDigit_append hd ht, hempty, Nat.add_comm]
  · simp [takeWhile_isDigit_append hd ht, hempty, Nat.add_comm]

/-- The text of a number with a fraction or an exponent, and its magnitude. -/
inductive FloatText : List Char → ℚ → Prop
  | fraction {whole fraction : List Char} (hw : IsWhole whole) (hf : ∀ c ∈ fraction, c.isDigit = true)
    (hne : fraction ≠ []) :
    FloatText (whole ++ fractionText fraction)
      (Nat.ofDigitChars 10 (whole ++ fraction) 0 * 10 ^ (-(fraction.length : ℤ)))
  | exponent {whole fraction ds : List Char} (hw : IsWhole whole) (hf : ∀ c ∈ fraction, c.isDigit = true)
    (below : Bool) (hd : ∀ c ∈ ds, c.isDigit = true) (hne : ds ≠ []) :
    FloatText (whole ++ fractionText fraction ++ 'e' :: (if below then '-' else '+') :: ds)
      (Nat.ofDigitChars 10 (whole ++ fraction) 0 *
        10 ^ ((if below then -(Nat.ofDigitChars 10 ds 0 : ℤ) else Nat.ofDigitChars 10 ds 0) - fraction.length))

theorem FloatText.scan {text : List Char} {q : ℚ} (h : FloatText text q) (negative : Bool) (hr : EndsNumber rest) :
    ∃ x : Scaled, x.negative = negative ∧ x.magnitude = q ∧
      scanNumber? (signText negative ++ (text ++ rest)) =
        some (.float (ofScaled x), (signText negative ++ text).length) := by
  cases h with
  | @fraction whole fraction hw hf hne =>
    have hempty : fraction.isEmpty = false := List.isEmpty_eq_false_iff.2 hne
    refine ⟨⟨negative, Nat.ofDigitChars 10 (whole ++ fraction) 0, -(fraction.length : ℤ)⟩, rfl, rfl, ?_⟩
    rw [List.append_assoc, scanNumber?_parts negative hw hf hr.digit hr.point, exponentPart?_eq_none hr]
    simp [hempty]
  | @exponent whole fraction ds hw hf below hd hne =>
    refine ⟨⟨negative, Nat.ofDigitChars 10 (whole ++ fraction) 0, _⟩, rfl, rfl, ?_⟩
    rw [List.append_assoc, List.append_assoc, List.cons_append, List.cons_append,
      scanNumber?_parts negative hw hf (by rintro c ⟨⟩; rfl) (by simp), exponentPart?_exponent hd hne hr.digit]
    simp [Nat.add_assoc]

theorem isDigit_of_mem_toDigits {c : Char} (h : c ∈ Nat.toDigits 10 n) : c.isDigit = true :=
  Nat.isDigit_of_mem_toDigits (by decide) (by decide) h

theorem ofDigitChars_lt (hd : ∀ c ∈ ds, c.isDigit = true) : Nat.ofDigitChars 10 ds 0 < 10 ^ ds.length := by
  induction ds using List.reverseRecOn with
  | nil => decide
  | append_singleton ds c ih =>
    have hc := Char.isDigit_iff_toNat.1 (hd c (by simp))
    have hds := ih fun d h => hd d (List.mem_append_left _ h)
    rw [Nat.ofDigitChars_append, Nat.ofDigitChars_cons, Nat.ofDigitChars_nil, List.length_append, List.length_singleton,
      Nat.pow_succ]
    have : c.toNat - '0'.toNat ≤ 9 := Nat.sub_le_of_le_add hc.2
    omega

theorem digitCount_ofDigitChars_le (hne : ds ≠ []) (hd : ∀ c ∈ ds, c.isDigit = true) :
    digitCount (Nat.ofDigitChars 10 ds 0) ≤ ds.length :=
  (Scaled.digitCount_le_iff (List.length_pos_of_ne_nil hne)).2 (ofDigitChars_lt hd)

theorem head?_toDigits (h : n ≠ 0) : (Nat.toDigits 10 n).head? ≠ some '0' := by
  induction n using Nat.strongRecOn with
  | ind n ih =>
    rcases Nat.lt_or_ge n 10 with hn | hn
    · rw [Nat.toDigits_of_lt_base hn]
      exact (by decide : ∀ k < 10, k ≠ 0 → [Nat.digitChar k].head? ≠ some '0') n hn h
    · rw [Nat.toDigits_of_base_le (by decide) hn, List.head?_append_of_ne_nil _ Nat.toDigits_ne_nil]
      exact ih (n / 10) (by omega) (by omega)

theorem isWhole_toDigits (n : ℕ) : IsWhole (Nat.toDigits 10 n) where
  digits _ := isDigit_of_mem_toDigits
  ne_nil := Nat.toDigits_ne_nil
  head h := by
    by_cases hn : n = 0
    · rw [hn, Nat.toDigits_zero]
    · exact absurd h (head?_toDigits hn)

structure IsSignificant (ds : List Char) : Prop where
  digits : ∀ c ∈ ds, c.isDigit = true
  ne_nil : ds ≠ []
  head : ds.head? ≠ some '0'

theorem toDigits_eq_significantDigits (h : n ≠ 0) :
    IsSignificant (significantDigits n) ∧ ∃ t, Nat.toDigits 10 n = significantDigits n ++ List.replicate t '0' := by
  obtain ⟨zs, ds, hds, hzs, hsplit⟩ : ∃ zs ds, ds = ((Nat.toDigits 10 n).reverse.dropWhile (· == '0')).reverse ∧
      (∀ z ∈ zs, z = '0') ∧ Nat.toDigits 10 n = ds ++ zs := by
    refine ⟨((Nat.toDigits 10 n).reverse.takeWhile (· == '0')).reverse, _, rfl, ?_, ?_⟩
    · intro z hz
      exact beq_iff_eq.1 (List.mem_takeWhile_imp (p := (· == '0')) (List.mem_reverse.1 hz))
    · rw [← List.reverse_append, List.takeWhile_append_dropWhile, List.reverse_reverse]
  have hne : ds ≠ [] := by
    rintro rfl
    cases zs with
    | nil => exact Nat.toDigits_ne_nil hsplit
    | cons z zs =>
      have := head?_toDigits h
      rw [hsplit] at this
      exact this (congrArg some (hzs z List.mem_cons_self))
  have hsig : significantDigits n = ds := by
    unfold significantDigits
    simp only [← hds, List.isEmpty_eq_false_iff.2 hne, if_neg Bool.false_ne_true]
  rw [hsig]
  refine ⟨⟨fun c hc => isDigit_of_mem_toDigits (hsplit ▸ List.mem_append_left _ hc), hne, ?_⟩, zs.length, ?_⟩
  · have hhead : (ds ++ zs).head? = ds.head? := List.head?_append_of_ne_nil _ hne
    rw [← hhead, ← hsplit]
    exact head?_toDigits h
  · rw [hsplit, ← List.eq_replicate_of_mem hzs]

theorem IsSignificant.isWhole_append (h : IsSignificant ds) (hz : ∀ c ∈ tail, c.isDigit = true) :
    IsWhole (ds ++ tail) where
  digits c hc := (List.mem_append.1 hc).elim (h.digits c) (hz c)
  ne_nil := by simp [h.ne_nil]
  head h0 := absurd h0 (List.head?_append_of_ne_nil _ h.ne_nil ▸ h.head)

theorem isDigit_of_mem_replicate {c : Char} (h : c ∈ List.replicate n '0') : c.isDigit = true := by
  rw [List.eq_of_mem_replicate h]
  rfl

theorem IsSignificant.isWhole_take (h : IsSignificant ds) : IsWhole (ds.take (n + 1)) where
  digits c hc := h.digits c (List.mem_of_mem_take hc)
  ne_nil := by
    obtain ⟨c, cs, rfl⟩ := List.exists_cons_of_ne_nil h.ne_nil
    simp
  head h0 := by
    obtain ⟨c, cs, rfl⟩ := List.exists_cons_of_ne_nil h.ne_nil
    exact absurd h0 h.head

theorem floatText_positional (h : IsSignificant ds) (leading : ℤ) :
    FloatText (positional ds leading) (Nat.ofDigitChars 10 ds 0 * 10 ^ (leading + 1 - ds.length)) := by
  unfold positional
  by_cases hneg : leading < 0
  · -- all digits stand behind the point
    have htext := @FloatText.fraction ['0'] (List.replicate (-leading - 1).toNat '0' ++ ds)
      ⟨List.forall_mem_singleton.2 rfl, by decide, fun _ => rfl⟩
      (fun c hc => (List.mem_append.1 hc).elim isDigit_of_mem_replicate (h.digits c)) (by simp [h.ne_nil])
    have hvalue : Nat.ofDigitChars 10 (['0'] ++ (List.replicate (-leading - 1).toNat '0' ++ ds)) 0 =
        Nat.ofDigitChars 10 ds 0 := by
      rw [Nat.ofDigitChars_append, Nat.ofDigitChars_append, Nat.ofDigitChars_replicate_zero]
      rfl
    have hplace : (-((List.replicate (-leading - 1).toNat '0' ++ ds).length : ℤ)) = leading + 1 - ds.length := by
      rw [List.length_append, List.length_replicate]
      omega
    rw [hvalue, hplace, fractionText, if_neg (by simp [h.ne_nil])] at htext
    rw [if_pos hneg]
    exact htext
  · rw [if_neg hneg]
    obtain ⟨w, rfl⟩ : ∃ w : ℕ, leading = w := ⟨leading.toNat, by omega⟩
    have hw : ((w : ℤ) + 1).toNat = w + 1 := by omega
    simp only [hw]
    by_cases hlen : ds.length ≤ w + 1
    · -- all stand in front of it, with zeros up to the point
      have htext := @FloatText.fraction _ ['0']
        (h.isWhole_append fun c hc => isDigit_of_mem_replicate (n := w + 1 - ds.length) hc)
        (List.forall_mem_singleton.2 rfl) (by decide)
      have hvalue : (Nat.ofDigitChars 10 (ds ++ List.replicate (w + 1 - ds.length) '0' ++ ['0']) 0 : ℚ) *
          10 ^ (-(['0'].length : ℤ)) = Nat.ofDigitChars 10 ds 0 * 10 ^ ((w : ℤ) + 1 - ds.length) := by
        rw [Nat.ofDigitChars_append, Nat.ofDigitChars_append, Nat.ofDigitChars_replicate_zero,
          show (w : ℤ) + 1 - ds.length = (w + 1 - ds.length : ℕ) by omega, zpow_natCast]
        simp [Nat.ofDigitChars_cons]
        ring
      rw [hvalue] at htext
      rw [List.take_of_length_le hlen, if_pos hlen]
      exact htext
    · -- the point stands between them
      have htext := FloatText.fraction (h.isWhole_take (n := w)) (fun c hc => h.digits c (List.mem_of_mem_drop hc))
        (by simpa using hlen)
      rw [List.take_append_drop, List.length_drop, fractionText, if_neg (by simpa using hlen),
        show (-((ds.length - (w + 1) : ℕ) : ℤ)) = w + 1 - ds.length by omega] at htext
      rw [show w + 1 - ds.length = 0 by omega, List.replicate_zero, List.append_nil, if_neg hlen]
      exact htext

theorem floatText_scientific (h : IsSignificant ds) (layout : Layout) (leading : ℤ) :
    FloatText (scientific layout ds leading) (Nat.ofDigitChars 10 ds 0 * 10 ^ (leading + 1 - ds.length)) := by
  have hpos : 0 < ds.length := List.length_pos_of_ne_nil h.ne_nil
  have htext := @FloatText.exponent _ (ds.drop 1)
    (List.replicate (layout.exponentWidth - (Nat.toDigits 10 leading.natAbs).length) '0' ++
      Nat.toDigits 10 leading.natAbs)
    (h.isWhole_take (n := 0)) (fun c hc => h.digits c (List.mem_of_mem_drop hc)) (decide (leading < 0))
    (fun c hc => (List.mem_append.1 hc).elim isDigit_of_mem_replicate isDigit_of_mem_toDigits)
    (by simp [Nat.toDigits_ne_nil])
  have hmantissa : ds.take 1 ++ fractionText (ds.drop 1) =
      if ds.length = 1 then ds else ds.take 1 ++ '.' :: ds.drop 1 := by
    obtain ⟨c, cs, rfl⟩ := List.exists_cons_of_ne_nil h.ne_nil
    cases cs <;> rfl
  have hleading : (if decide (leading < 0) then -(leading.natAbs : ℤ) else leading.natAbs) = leading := by
    by_cases hneg : leading < 0
    · rw [if_pos (decide_eq_true hneg)]
      omega
    · rw [if_neg (by simpa using hneg)]
      omega
  rw [List.take_append_drop, Nat.ofDigitChars_append, Nat.ofDigitChars_replicate_zero, Nat.mul_zero,
    Nat.ofDigitChars_ten_toDigits, hleading, hmantissa, List.length_drop,
    show leading - ((ds.length - 1 : ℕ) : ℤ) = leading + 1 - ds.length by omega] at htext
  simpa [scientific] using htext

theorem floatText_shortest {m : ℕ} {e : ℤ} (hm : m ≠ 0) (layout : Layout) :
    let x := shortest m e
    let ds := significantDigits x.coefficient
    FloatText (if layout.positionalFrom ≤ x.adjusted && x.adjusted < layout.positionalBelow then
      positional ds x.adjusted else scientific layout ds x.adjusted) x.magnitude := by
  intro x ds
  -- zero is in no interval of a double that is not zero
  have hc : x.coefficient ≠ 0 := by
    intro h0
    have hlow := (shortest_inInterval (e := e) hm).2.low
    have hpos : (0 : ℚ) < lowQuarters m e * 2 ^ (e - 2) := by
      have := le_lowQuarters (e := e) hm
      have : (1 : ℚ) ≤ m := by exact_mod_cast Nat.one_le_iff_ne_zero.2 hm
      have : (0 : ℚ) < lowQuarters m e := by linarith
      positivity
    have : x.magnitude = 0 := by rw [Scaled.magnitude, h0]; simp
    linarith
  -- the text has the significant digits, so the zeros behind them move into the exponent
  obtain ⟨hds, t, ht⟩ := toDigits_eq_significantDigits hc
  have hcoefficient : x.coefficient = Nat.ofDigitChars 10 ds 0 * 10 ^ t := by
    rw [← Nat.ofDigitChars_ten_toDigits (n := x.coefficient), ht, Nat.ofDigitChars_append,
      Nat.ofDigitChars_replicate_zero, Nat.mul_comm]
  have hadjusted : x.adjusted + 1 - ds.length = x.exponent + t := by
    have : digitCount x.coefficient = ds.length + t := by
      rw [digitCount, ht, List.length_append, List.length_replicate]
    rw [Scaled.adjusted, this]
    push_cast
    ring
  have hvalue : Nat.ofDigitChars 10 ds 0 * 10 ^ (x.adjusted + 1 - ds.length) = x.magnitude := by
    rw [Scaled.magnitude, hcoefficient, hadjusted, zpow_add₀ (by norm_num), zpow_natCast]
    push_cast
    ring
  rw [← hvalue]
  split
  · exact floatText_positional hds _
  · exact floatText_scientific hds layout _

theorem floatText_zero : FloatText (positional ['0'] 0) 0 := by
  have htext := @FloatText.fraction ['0'] ['0'] ⟨List.forall_mem_singleton.2 rfl, by decide, fun _ => rfl⟩
    (List.forall_mem_singleton.2 rfl) (by decide)
  have hvalue : Nat.ofDigitChars 10 (['0'] ++ ['0']) 0 = 0 := by decide
  rw [hvalue, Nat.cast_zero, zero_mul] at htext
  exact htext

@[simp] theorem toList_signed (negative : Bool) (text : List Char) :
    (signed negative (String.ofList text)).toList = signText negative ++ text := by
  cases negative <;> simp [signed, signText]

/-- A double is what its text is read as. -/
theorem scanNumber?_format (negative : Bool) {m : ℕ} {e : ℤ} (hf : Fits m e) (layout : Layout) (hr : EndsNumber rest) :
    ∃ text q, FloatText text q ∧
      ((Binary64.finite negative m e hf).format layout).toList = signText negative ++ text ∧
      scanNumber? (signText negative ++ (text ++ rest)) =
        some (.float (.finite negative m e hf), (signText negative ++ text).length) := by
  by_cases hm : m = 0
  · subst hm
    have he : e = -1074 := hf.2.1.resolve_left (by decide)
    subst he
    obtain ⟨x, hx, hq, hscan⟩ := floatText_zero.scan negative hr
    have hzero : x.coefficient = 0 := by
      by_contra hc
      exact absurd hq (Scaled.magnitude_pos hc).ne'
    refine ⟨_, _, floatText_zero, toList_signed negative _, hscan.trans ?_⟩
    rw [ofScaled, hzero, hx]
    rfl
  · obtain ⟨x, hx, hq, hscan⟩ := (floatText_shortest hm layout).scan negative hr
    refine ⟨_, _, floatText_shortest hm layout, ?_, hscan.trans ?_⟩
    · rw [format, if_neg hm]
      exact toList_signed negative _
    · rw [ofScaled_of_magnitude_eq hm hf hq, hx]

theorem toList_toString (k : ℤ) : (toString k).toList = signText (k < 0) ++ Nat.toDigits 10 k.natAbs := by
  rw [Int.toString_eq_repr, Int.repr_eq_if]
  by_cases hk : 0 ≤ k
  · rw [if_pos hk, Nat.toList_repr, decide_eq_false (by omega), show k.toNat = k.natAbs by omega]
    rfl
  · rw [if_neg hk, String.toList_append, Nat.toList_repr, decide_eq_true (by omega),
      show (-k).toNat = k.natAbs by omega]
    rfl

theorem scanNumber?_toString (k : ℤ) (hr : EndsNumber rest) :
    scanNumber? (signText (k < 0) ++ (Nat.toDigits 10 k.natAbs ++ rest)) =
      some (.int (k < 0) (Nat.toDigits 10 k.natAbs), (signText (k < 0) ++ Nat.toDigits 10 k.natAbs).length) := by
  have hfraction : ∀ c ∈ ([] : List Char), c.isDigit = true := fun _ hc => nomatch hc
  have hscan := scanNumber?_parts (k < 0) (isWhole_toDigits k.natAbs) hfraction hr.digit hr.point
  rw [exponentPart?_eq_none hr] at hscan
  simpa [fractionText] using hscan

end Criteria.Json
