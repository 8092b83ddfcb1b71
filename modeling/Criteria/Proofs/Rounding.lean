import Criteria.Number.Shortest
import Criteria.Proofs.ExactValue
import Mathlib.Algebra.Order.Floor.Semifield
import Mathlib.Data.Rat.Floor
import Mathlib.Tactic.FieldSimp
import Mathlib.Tactic.LinearCombination
import Mathlib.Data.Int.Log

namespace Criteria.Binary64
variable {m num den : ℕ} {e : ℤ} {q : ℚ} {x : Scaled} {negative : Bool}

@[simp] theorem magnitude_dyadic (negative : Bool) (n : ℕ) (e : ℤ) : (dyadic negative n e).magnitude = n * 2 ^ e := by
  unfold dyadic
  by_cases he : 0 ≤ e
  · rw [if_pos he]
    obtain ⟨k, rfl⟩ := Int.eq_ofNat_of_zero_le he
    simp [Scaled.magnitude]
  · rw [if_neg he]
    obtain ⟨k, rfl⟩ : ∃ k : ℕ, e = -k := ⟨(-e).toNat, by omega⟩
    have h10 : (10 : ℚ) ^ k = 5 ^ k * 2 ^ k := by rw [← mul_pow]; norm_num
    simp only [Scaled.magnitude, neg_neg, Int.toNat_natCast, Nat.pow_eq, zpow_neg, zpow_natCast, h10]
    push_cast
    field_simp

@[simp] theorem negative_dyadic (negative : Bool) (n : ℕ) (e : ℤ) : (dyadic negative n e).negative = negative := by
  unfold dyadic
  split <;> rfl

theorem value_dyadic (negative : Bool) (n : ℕ) (e : ℤ) :
    (dyadic negative n e).value = if negative then -(n * 2 ^ e : ℚ) else n * 2 ^ e := by
  simp [Scaled.value]

/-- The interval of a double: what lies in it is read as the double. -/
structure InInterval (m : ℕ) (e : ℤ) (q : ℚ) : Prop where
  low : lowQuarters m e * 2 ^ (e - 2) ≤ q
  high : q ≤ (4 * m + 2 : ℕ) * 2 ^ (e - 2)
  inside : m % 2 = 1 → lowQuarters m e * 2 ^ (e - 2) < q ∧ q < (4 * m + 2 : ℕ) * 2 ^ (e - 2)

theorem inInterval_of_roundsTo (hx : x.negative = false) (h : roundsTo m e x = true) :
    InInterval m e x.magnitude := by
  have hvalue : x.value = x.magnitude := by rw [Scaled.value, hx, if_neg Bool.false_ne_true]
  have hdyadic (n : ℕ) : (dyadic false n (e - 2)).value = n * 2 ^ (e - 2) := value_dyadic false n (e - 2)
  unfold roundsTo at h
  split at h
  · simp only [Bool.and_eq_true, bne_iff_ne, ne_eq, Scaled.compare_eq_gt_iff, hvalue, hdyadic, not_lt] at h
    exact ⟨h.1, h.2, fun hodd => by omega⟩
  · simp only [Bool.and_eq_true, beq_iff_eq, Scaled.compare_eq_lt_iff, hvalue, hdyadic] at h
    exact ⟨h.1.le, h.2.le, fun _ => h⟩

theorem roundDiv_eq {r : ℕ} (hlow : 2 * r * den ≤ 2 * num + den) (hhigh : 2 * num ≤ (2 * r + 1) * den)
    (hodd : r % 2 = 1 → 2 * r * den < 2 * num + den ∧ 2 * num < (2 * r + 1) * den) (hden : 0 < den) :
    roundDiv num den = r := by
  have hdiv := Nat.div_add_mod num den
  have hmod := Nat.mod_lt num hden
  unfold roundDiv
  generalize num / den = k at *
  generalize num % den = t at *
  have hle : r ≤ k + 1 := by
    by_contra hlt
    nlinarith
  have hge : k ≤ r := by
    by_contra hlt
    nlinarith
  rcases Nat.eq_or_lt_of_le hge with rfl | hlt
  · have ht : 2 * t ≤ den := by nlinarith
    by_cases htie : 2 * t < den
    · rw [if_pos htie]
    · -- half a unit, so the number rounded to is even
      have heven : k % 2 ≠ 1 := fun hk => by nlinarith [(hodd hk).2]
      rw [if_neg htie, if_neg (by omega)]
      omega
  · obtain rfl : r = k + 1 := by omega
    have ht : den ≤ 2 * t := by nlinarith
    rw [if_neg (by omega)]
    by_cases htie : den < 2 * t
    · rw [if_pos htie]
    · have heven : (k + 1) % 2 ≠ 1 := fun hk => by nlinarith [(hodd hk).1]
      rw [if_neg htie]
      omega

theorem scaled_quotient (num den : ℕ) (k : ℤ) :
    ((num * Nat.pow 2 (-k).toNat : ℕ) : ℚ) / (den * Nat.pow 2 k.toNat : ℕ) = num / den * 2 ^ (-k) := by
  have hk : (2 : ℚ) ^ (-k) = 2 ^ (-k).toNat / 2 ^ k.toNat := by
    rw [← zpow_natCast, ← zpow_natCast, ← zpow_sub₀ (by norm_num)]
    congr 1
    omega
  rw [hk]
  simp only [Nat.pow_eq]
  push_cast
  exact mul_div_mul_comm _ _ _ _

theorem log_quotient (hnum : num ≠ 0) (hden : den ≠ 0) :
    (num.log2 : ℤ) - den.log2 - 1 ≤ Int.log 2 (num / den : ℚ) ∧
      Int.log 2 (num / den : ℚ) ≤ num.log2 - den.log2 := by
  have hn : (0 : ℚ) < num := by exact_mod_cast Nat.pos_of_ne_zero hnum
  have hd : (0 : ℚ) < den := by exact_mod_cast Nat.pos_of_ne_zero hden
  have hn1 : (2 : ℚ) ^ (num.log2 : ℤ) ≤ num := by exact_mod_cast Nat.log2_self_le hnum
  have hn2 : (num : ℚ) < 2 ^ ((num.log2 : ℤ) + 1) := by exact_mod_cast Nat.lt_log2_self
  have hd1 : (2 : ℚ) ^ (den.log2 : ℤ) ≤ den := by exact_mod_cast Nat.log2_self_le hden
  have hd2 : (den : ℚ) < 2 ^ ((den.log2 : ℤ) + 1) := by exact_mod_cast Nat.lt_log2_self
  constructor
  · rw [← Int.zpow_le_iff_le_log (by norm_num) (div_pos hn hd), Nat.cast_ofNat,
      show (num.log2 : ℤ) - den.log2 - 1 = num.log2 - (den.log2 + 1) by ring, zpow_sub₀ (by norm_num)]
    exact div_le_div₀ hn.le hn1 hd hd2.le
  · rw [← Int.lt_add_one_iff, ← Int.lt_zpow_iff_log_lt (by norm_num) (div_pos hn hd), Nat.cast_ofNat,
      show (num.log2 : ℤ) - den.log2 + 1 = num.log2 + 1 - den.log2 by ring, zpow_sub₀ (by norm_num)]
    exact div_lt_div₀ hn2 hd1 (by positivity) (by positivity)

theorem exponent_eq (hnum : num ≠ 0) (hden : den ≠ 0) {near : ℤ} (hnear : near = num.log2 - den.log2 - 52) :
    (if num * Nat.pow 2 (-near).toNat / (den * Nat.pow 2 near.toNat) < Nat.pow 2 52 then near - 1 else near) =
      Int.log 2 (num / den : ℚ) - 52 := by
  have hq : (0 : ℚ) < num / den := by positivity
  have hfloor : num * Nat.pow 2 (-near).toNat / (den * Nat.pow 2 near.toNat) < Nat.pow 2 52 ↔
      Int.log 2 (num / den : ℚ) < near + 52 := by
    rw [← Nat.floor_div_eq_div (K := ℚ), scaled_quotient, Nat.floor_lt (by positivity),
      ← Int.lt_zpow_iff_log_lt (by norm_num) hq, zpow_neg, ← div_eq_mul_inv, div_lt_iff₀ (by positivity),
      zpow_add₀ (by norm_num)]
    norm_num
    rw [mul_comm]
  have hlog := log_quotient hnum hden
  by_cases h : Int.log 2 (num / den : ℚ) < near + 52
  · rw [if_pos (hfloor.2 h)]
    omega
  · rw [if_neg (mt hfloor.1 h)]
    omega

theorem ofRatio_eq (negative : Bool) (hnum : num ≠ 0) (hden : den ≠ 0) {k : ℤ}
    (hk : k = max (-1074) (Int.log 2 (num / den : ℚ) - 52)) {r : ℕ}
    (hr : roundDiv (num * Nat.pow 2 (-k).toNat) (den * Nat.pow 2 k.toNat) = r) :
    ofRatio negative num den =
      if r = Nat.pow 2 53 then make negative (Nat.pow 2 52) (k + 1) else make negative r k := by
  unfold ofRatio
  rw [if_neg hnum]
  simp only [exponent_eq hnum hden rfl, ← hk, hr]

theorem log_of_inInterval (hm : m ≠ 0) (hf : Fits m e) (h : InInterval m e q) :
    max (-1074) (Int.log 2 q - 52) = e ∨
      (m = 2 ^ 52 ∧ -1074 < e ∧ max (-1074) (Int.log 2 q - 52) = e - 1 ∧ q < 2 ^ (52 + e)) := by
  obtain ⟨hlt, hnormal, hmin, -⟩ := hf
  simp only [Nat.pow_eq] at hlt hnormal
  have hpos : (0 : ℚ) < 2 ^ (e - 2) := by positivity
  have hlow1 : 1 ≤ lowQuarters m e := by unfold lowQuarters; split <;> omega
  have hq : 0 < q := by
    refine lt_of_lt_of_le (mul_pos ?_ hpos) h.low
    exact_mod_cast hlow1
  have hupper : Int.log 2 q < 53 + e := by
    rw [← Int.lt_zpow_iff_log_lt (by norm_num) hq]
    calc q ≤ (4 * m + 2 : ℕ) * 2 ^ (e - 2) := h.high
      _ < (2 ^ 55 : ℕ) * 2 ^ (e - 2) := by
        apply mul_lt_mul_of_pos_right _ hpos
        exact_mod_cast (by omega : 4 * m + 2 < 2 ^ 55)
      _ = 2 ^ (53 + e) := by
        rw [show 53 + e = 55 + (e - 2) by ring, zpow_add₀ (by norm_num)]
        norm_num
  have hlower {k : ℕ} (hk : 2 ^ k ≤ lowQuarters m e) : (k : ℤ) + (e - 2) ≤ Int.log 2 q := by
    rw [← Int.zpow_le_iff_le_log (by norm_num) hq, Nat.cast_ofNat, zpow_add₀ (by norm_num), zpow_natCast]
    refine le_trans (mul_le_mul_of_nonneg_right ?_ hpos.le) h.low
    exact_mod_cast hk
  by_cases he : e = -1074
  · left; omega
  · have hm52 : 2 ^ 52 ≤ m := by omega
    rcases Nat.eq_or_lt_of_le hm52 with hm | hm
    · -- at a power of two the interval goes on below it, where the leading bit is one place lower
      have hk := hlower (k := 53) (by unfold lowQuarters; split <;> omega)
      by_cases hlog : Int.log 2 q < 52 + e
      · right
        refine ⟨hm.symm, by omega, by omega, ?_⟩
        have := (Int.lt_zpow_iff_log_lt (b := 2) (by norm_num) hq).2 hlog
        exact_mod_cast this
      · left; omega
    · have hk := hlower (k := 54) (by unfold lowQuarters; split <;> omega)
      left; omega

theorem roundDiv_eq_of_abs {r : ℕ} {s : ℚ} (hden : 0 < den) (hs : (num : ℚ) / den = s)
    (hlow : 2 * (r : ℚ) - 1 ≤ 2 * s) (hhigh : 2 * s ≤ 2 * r + 1)
    (hodd : r % 2 = 1 → 2 * (r : ℚ) - 1 < 2 * s ∧ 2 * s < 2 * r + 1) : roundDiv num den = r := by
  have hd : (0 : ℚ) < den := by exact_mod_cast hden
  obtain rfl : s = num / den := hs.symm
  have hscale : 2 * ((num : ℚ) / den) * den = 2 * num := by field_simp
  refine roundDiv_eq ?_ ?_ (fun hr => ⟨?_, ?_⟩) hden
  · have := mul_le_mul_of_nonneg_right hlow hd.le
    have : (2 * r * den : ℚ) ≤ 2 * num + den := by linarith
    exact_mod_cast this
  · have := mul_le_mul_of_nonneg_right hhigh hd.le
    have : (2 * num : ℚ) ≤ (2 * r + 1) * den := by linarith
    exact_mod_cast this
  · have := mul_lt_mul_of_pos_right (hodd hr).1 hd
    have : (2 * r * den : ℚ) < 2 * num + den := by linarith
    exact_mod_cast this
  · have := mul_lt_mul_of_pos_right (hodd hr).2 hd
    have : (2 * num : ℚ) < (2 * r + 1) * den := by linarith
    exact_mod_cast this

theorem InInterval.units (h : InInterval m e q) :
    (lowQuarters m e : ℚ) ≤ 4 * (q * 2 ^ (-e)) ∧ 4 * (q * 2 ^ (-e)) ≤ 4 * m + 2 ∧
      (m % 2 = 1 → (lowQuarters m e : ℚ) < 4 * (q * 2 ^ (-e)) ∧ 4 * (q * 2 ^ (-e)) < 4 * m + 2) := by
  have hpos : (0 : ℚ) < 4 * 2 ^ (-e) := by positivity
  have hunit : (2 : ℚ) ^ (e - 2) * (4 * 2 ^ (-e)) = 1 := by
    rw [mul_left_comm, ← zpow_add₀ (by norm_num), show e - 2 + -e = -2 by ring]
    norm_num
  have hcancel (n : ℚ) : n * 2 ^ (e - 2) * (4 * 2 ^ (-e)) = n := by rw [mul_assoc, hunit, mul_one]
  have hassoc : q * (4 * 2 ^ (-e)) = 4 * (q * 2 ^ (-e)) := mul_left_comm _ _ _
  have hcast : ((4 * m + 2 : ℕ) : ℚ) = 4 * m + 2 := by push_cast; rfl
  rw [← hassoc, ← hcast]
  refine ⟨?_, ?_, fun hodd => ⟨?_, ?_⟩⟩
  · rw [← hcancel (lowQuarters m e)]
    exact mul_le_mul_of_nonneg_right h.low hpos.le
  · rw [← hcancel ((4 * m + 2 : ℕ) : ℚ)]
    exact mul_le_mul_of_nonneg_right h.high hpos.le
  · rw [← hcancel (lowQuarters m e)]
    exact mul_lt_mul_of_pos_right (h.inside hodd).1 hpos
  · rw [← hcancel ((4 * m + 2 : ℕ) : ℚ)]
    exact mul_lt_mul_of_pos_right (h.inside hodd).2 hpos

theorem le_lowQuarters (hm : m ≠ 0) : (4 * m - 2 : ℚ) ≤ lowQuarters m e := by
  have hsub : ((4 * m - 2 : ℕ) : ℚ) = 4 * m - 2 := by
    rw [Nat.cast_sub (by omega)]
    push_cast
    rfl
  rw [← hsub, Nat.cast_le]
  unfold lowQuarters
  split <;> omega

/-- What lies in the interval of a double is rounded to it. -/
theorem ofRatio_of_inInterval (hnum : num ≠ 0) (hden : den ≠ 0) (hm : m ≠ 0) (hf : Fits m e)
    (h : InInterval m e (num / den)) : ofRatio negative num den = .finite negative m e hf := by
  have hmake : make negative m e = .finite negative m e hf := dif_pos hf
  have hpos (k : ℤ) : 0 < den * Nat.pow 2 k.toNat :=
    Nat.mul_pos (Nat.pos_of_ne_zero hden) (Nat.pow_pos (by decide))
  obtain ⟨hlow, hhigh, hinside⟩ := h.units
  rcases log_of_inInterval hm hf h with hlog | ⟨hm52, he, hlog, hbelow⟩
  · have hlowq := le_lowQuarters (e := e) hm
    have hround : roundDiv (num * Nat.pow 2 (-e).toNat) (den * Nat.pow 2 e.toNat) = m := by
      apply roundDiv_eq_of_abs (hpos e) (scaled_quotient num den e)
      · linarith
      · linarith
      · intro hodd
        obtain ⟨hl, hh⟩ := hinside hodd
        exact ⟨by linarith, by linarith⟩
    rw [ofRatio_eq negative hnum hden hlog.symm hround, if_neg hf.1.ne, hmake]
  · -- just below a power of two: rounded up to it, from half the distance
    have hquarter : (lowQuarters m e : ℚ) = 2 ^ 54 - 1 := by
      unfold lowQuarters
      rw [if_pos ⟨by simpa using hm52, he⟩, hm52]
      norm_num
    have hup : (num / den : ℚ) * 2 ^ (-e) < 2 ^ 52 := by
      rw [zpow_neg, ← div_eq_mul_inv, div_lt_iff₀ (by positivity)]
      rwa [zpow_add₀ (by norm_num)] at hbelow
    have hdouble : (num / den : ℚ) * 2 ^ (-(e - 1)) = 2 * (num / den * 2 ^ (-e)) := by
      rw [show -(e - 1) = -e + 1 by ring, zpow_add₀ (by norm_num)]
      ring
    have hround : roundDiv (num * Nat.pow 2 (-(e - 1)).toNat) (den * Nat.pow 2 (e - 1).toNat) =
        Nat.pow 2 53 := by
      have hcast : ((Nat.pow 2 53 : ℕ) : ℚ) = 2 ^ 53 := by norm_num
      apply roundDiv_eq_of_abs (hpos (e - 1)) ((scaled_quotient num den (e - 1)).trans hdouble)
      · rw [hcast]
        linarith
      · rw [hcast]
        linarith
      · exact fun hodd => absurd hodd (by decide)
    rw [ofRatio_eq negative hnum hden hlog.symm hround, if_pos rfl, sub_add_cancel]
    subst hm52
    exact hmake

theorem InInterval.bounds (hm : m ≠ 0) (hf : Fits m e) (h : InInterval m e q) :
    (2 : ℚ) ^ (-1076 : ℤ) ≤ q ∧ q < 2 ^ (1024 : ℤ) := by
  obtain ⟨hlt, -, hmin, hmax⟩ := hf
  simp only [Nat.pow_eq] at hlt
  have hpos : (0 : ℚ) < 2 ^ (e - 2) := by positivity
  have hone : (1 : ℚ) ≤ lowQuarters m e := by
    have : 1 ≤ lowQuarters m e := by unfold lowQuarters; split <;> omega
    exact_mod_cast this
  have htop : ((4 * m + 2 : ℕ) : ℚ) < 2 ^ (55 : ℤ) := by
    have : 4 * m + 2 < 2 ^ 55 := by omega
    exact_mod_cast this
  constructor
  · calc (2 : ℚ) ^ (-1076 : ℤ) ≤ 2 ^ (e - 2) := zpow_le_zpow_right₀ (by norm_num) (by omega)
      _ ≤ lowQuarters m e * 2 ^ (e - 2) := le_mul_of_one_le_left hpos.le hone
      _ ≤ q := h.low
  · calc q ≤ (4 * m + 2 : ℕ) * 2 ^ (e - 2) := h.high
      _ < 2 ^ (55 : ℤ) * 2 ^ (e - 2) := mul_lt_mul_of_pos_right htop hpos
      _ = 2 ^ (55 + (e - 2)) := (zpow_add₀ (by norm_num) _ _).symm
      _ ≤ 2 ^ (1024 : ℤ) := zpow_le_zpow_right₀ (by norm_num) (by omega)

theorem two_pow_le_ten_pow : (2 : ℚ) ^ (1076 : ℤ) ≤ 10 ^ (400 : ℤ) :=
  calc (2 : ℚ) ^ (1076 : ℤ) ≤ 2 ^ (3 * 400 : ℤ) := zpow_le_zpow_right₀ (by norm_num) (by norm_num)
    _ = (2 ^ (3 : ℤ)) ^ (400 : ℤ) := zpow_mul _ _ _
    _ ≤ 10 ^ (400 : ℤ) := zpow_le_zpow_left₀ (by norm_num) (by norm_num) (by norm_num)

theorem adjusted_of_inInterval (hm : m ≠ 0) (hf : Fits m e) (h : InInterval m e x.magnitude) :
    x.coefficient ≠ 0 ∧ -400 ≤ x.adjusted ∧ x.adjusted ≤ 400 := by
  obtain ⟨hbelow, habove⟩ := h.bounds hm hf
  have hc : x.coefficient ≠ 0 := by
    intro hc
    rw [Scaled.magnitude, hc, Nat.cast_zero, zero_mul] at hbelow
    exact absurd hbelow (by norm_num)
  refine ⟨hc, ?_, ?_⟩
  · by_contra hlt
    have hten : (10 : ℚ) ^ (x.adjusted + 1) ≤ 10 ^ (-400 : ℤ) := zpow_le_zpow_right₀ (by norm_num) (by omega)
    have htwo : (10 : ℚ) ^ (-400 : ℤ) ≤ 2 ^ (-1076 : ℤ) := by
      rw [zpow_neg, zpow_neg]
      exact inv_anti₀ (by positivity) two_pow_le_ten_pow
    exact absurd (Scaled.magnitude_lt_ten_pow x) (not_lt.2 (hten.trans (htwo.trans hbelow)))
  · by_contra hlt
    have hten : (10 : ℚ) ^ (400 : ℤ) ≤ 10 ^ x.adjusted := zpow_le_zpow_right₀ (by norm_num) (by omega)
    have htwo : (2 : ℚ) ^ (1024 : ℤ) ≤ 2 ^ (1076 : ℤ) := zpow_le_zpow_right₀ (by norm_num) (by norm_num)
    exact absurd (Scaled.ten_pow_adjusted_le hc)
      (not_le.2 (habove.trans_le (htwo.trans (two_pow_le_ten_pow.trans hten))))

/-- A decimal in the interval of a double is read as the double. -/
theorem ofScaled_of_inInterval (hm : m ≠ 0) (hf : Fits m e) (h : InInterval m e x.magnitude) :
    ofScaled x = .finite x.negative m e hf := by
  obtain ⟨hc, hlow, hhigh⟩ := adjusted_of_inInterval hm hf h
  -- one of the two powers of ten is written out, the other is one
  have hratio : ((x.coefficient * Nat.pow 10 x.exponent.toNat : ℕ) : ℚ) / (Nat.pow 10 (-x.exponent).toNat : ℕ) =
      x.magnitude := by
    have hsplit : x.exponent = (x.exponent.toNat : ℤ) - (-x.exponent).toNat := by omega
    rw [Scaled.magnitude]
    conv_rhs => rw [hsplit, zpow_sub₀ (by norm_num), zpow_natCast, zpow_natCast]
    simp only [Nat.pow_eq]
    push_cast
    exact mul_div_assoc _ _ _
  have hguard : (x.coefficient = 0 || x.adjusted < -400) = false := by
    simp only [Bool.or_eq_false_iff, decide_eq_false_iff_not]
    exact ⟨hc, by omega⟩
  unfold ofScaled
  rw [hguard, if_neg Bool.false_ne_true, if_neg (by omega)]
  apply ofRatio_of_inInterval
  · exact Nat.mul_ne_zero hc (Nat.pow_pos (by decide)).ne'
  · exact (Nat.pow_pos (by decide)).ne'
  · exact hm
  · rwa [hratio]

theorem nearestAt?_eq_some {place : ℤ} (h : nearestAt? m e place = some x) :
    x.negative = false ∧ x.exponent = place ∧ roundsTo m e x = true := by
  unfold nearestAt? at h
  simp only at h
  split at h
  · exact nomatch h
  · next hbelow _ =>
    cases h
    exact ⟨rfl, rfl, hbelow⟩
  · next _ habove =>
    cases h
    exact ⟨rfl, rfl, habove⟩
  · next hbelow habove =>
    split at h
    · cases h
      exact ⟨rfl, rfl, hbelow⟩
    · split at h
      · cases h
        exact ⟨rfl, rfl, habove⟩
      · split at h <;> cases h
        · exact ⟨rfl, rfl, hbelow⟩
        · exact ⟨rfl, rfl, habove⟩

theorem inInterval_self (hm : m ≠ 0) : InInterval m e (m * 2 ^ e) := by
  have hpos : (0 : ℚ) < 2 ^ (e - 2) := by positivity
  have hfour : (2 : ℚ) ^ e = 4 * 2 ^ (e - 2) := by
    rw [show e = 2 + (e - 2) by ring, zpow_add₀ (by norm_num)]
    norm_num
  have hself : (m : ℚ) * 2 ^ e = (4 * m : ℕ) * 2 ^ (e - 2) := by
    rw [hfour]
    push_cast
    ring
  have hlow : ((lowQuarters m e : ℕ) : ℚ) < (4 * m : ℕ) := by
    have : lowQuarters m e < 4 * m := by unfold lowQuarters; split <;> omega
    exact_mod_cast this
  have hhigh : ((4 * m : ℕ) : ℚ) < (4 * m + 2 : ℕ) := by exact_mod_cast (by omega : 4 * m < 4 * m + 2)
  rw [hself]
  have hl := mul_lt_mul_of_pos_right hlow hpos
  have hh := mul_lt_mul_of_pos_right hhigh hpos
  exact ⟨hl.le, hh.le, fun _ => ⟨hl, hh⟩⟩

/-- The fewest digits that stand for a double lie in its interval. -/
theorem shortest_inInterval (hm : m ≠ 0) :
    (shortest m e).negative = false ∧ InInterval m e (shortest m e).magnitude := by
  unfold shortest
  simp only
  cases hfound : (List.range 17).findSome? fun i : ℕ => nearestAt? m e ((dyadic false m e).adjusted - i) with
  | none =>
    rw [Option.getD_none, magnitude_dyadic]
    exact ⟨negative_dyadic false m e, inInterval_self hm⟩
  | some x =>
    obtain ⟨i, -, hi⟩ := List.exists_of_findSome?_eq_some hfound
    obtain ⟨hn, -, hr⟩ := nearestAt?_eq_some hi
    exact ⟨hn, inInterval_of_roundsTo hn hr⟩

theorem exponent_shortest (hm : m ≠ 0) (hf : Fits m e) : -1074 ≤ (shortest m e).exponent := by
  have hself : InInterval m e (dyadic false m e).magnitude := by
    rw [magnitude_dyadic]
    exact inInterval_self hm
  obtain ⟨-, hlow, -⟩ := adjusted_of_inInterval hm hf hself
  unfold shortest
  simp only
  cases hfound : (List.range 17).findSome? fun i : ℕ => nearestAt? m e ((dyadic false m e).adjusted - i) with
  | none =>
    have hmin := hf.2.2.1
    rw [Option.getD_none]
    unfold dyadic
    split
    · show (-1074 : ℤ) ≤ 0
      decide
    · exact hmin
  | some x =>
    obtain ⟨i, hi, hx⟩ := List.exists_of_findSome?_eq_some hfound
    obtain ⟨-, hplace, -⟩ := nearestAt?_eq_some hx
    have := List.mem_range.1 hi
    rw [Option.getD_some, hplace]
    omega

theorem ofScaled_of_magnitude_eq (hm : m ≠ 0) (hf : Fits m e) (h : x.magnitude = (shortest m e).magnitude) :
    ofScaled x = .finite x.negative m e hf :=
  ofScaled_of_inInterval hm hf (h ▸ (shortest_inInterval hm).2)

end Criteria.Binary64
