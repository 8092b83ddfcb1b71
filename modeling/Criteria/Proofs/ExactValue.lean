import Criteria.Number
import Mathlib.Algebra.Order.Field.Power
import Mathlib.Algebra.Order.Field.Rat
import Mathlib.Order.Compare
import Mathlib.Order.WithBot
import Mathlib.Tactic.Linarith
import Mathlib.Tactic.Positivity
import Mathlib.Tactic.Ring

namespace Criteria

namespace Scaled
variable {x y : Scaled}

def magnitude (x : Scaled) : ℚ := x.coefficient * 10 ^ x.exponent

def value (x : Scaled) : ℚ := if x.negative then -x.magnitude else x.magnitude

theorem ten_pow_pos (e : ℤ) : (0 : ℚ) < 10 ^ e := by positivity

theorem magnitude_pos (h : x.coefficient ≠ 0) : 0 < x.magnitude := by
  have hc : (0 : ℚ) < x.coefficient := by exact_mod_cast Nat.pos_of_ne_zero h
  exact mul_pos hc (ten_pow_pos x.exponent)

theorem digitCount_le_iff {n k : ℕ} (hk : 0 < k) : digitCount n ≤ k ↔ n < 10 ^ k :=
  Nat.length_toDigits_le_iff (by decide) hk

theorem lt_ten_pow_digitCount (n : ℕ) : n < 10 ^ digitCount n :=
  (digitCount_le_iff (digitCount_pos n)).1 le_rfl

theorem ten_pow_pred_digitCount_le {n : ℕ} (h : n ≠ 0) : 10 ^ (digitCount n - 1) ≤ n := by
  by_contra hlt
  by_cases hk : 0 < digitCount n - 1
  · have hle := (digitCount_le_iff hk).2 (Nat.lt_of_not_le hlt)
    omega
  · rw [show digitCount n - 1 = 0 by omega] at hlt
    omega

theorem ten_pow_adjusted_le (h : x.coefficient ≠ 0) : (10 : ℚ) ^ x.adjusted ≤ x.magnitude := by
  have hc : ((10 ^ (digitCount x.coefficient - 1) : ℕ) : ℚ) ≤ x.coefficient := by
    exact_mod_cast ten_pow_pred_digitCount_le h
  have he : x.adjusted = ((digitCount x.coefficient - 1 : ℕ) : ℤ) + x.exponent := by
    have := digitCount_pos x.coefficient
    unfold adjusted
    omega
  calc (10 : ℚ) ^ x.adjusted
      = ((10 ^ (digitCount x.coefficient - 1) : ℕ) : ℚ) * 10 ^ x.exponent := by
        rw [he, zpow_add₀ (by norm_num), zpow_natCast]
        push_cast
        rfl
    _ ≤ x.magnitude := mul_le_mul_of_nonneg_right hc (ten_pow_pos x.exponent).le

theorem magnitude_lt_ten_pow (x : Scaled) : x.magnitude < (10 : ℚ) ^ (x.adjusted + 1) := by
  have hc : (x.coefficient : ℚ) < ((10 ^ digitCount x.coefficient : ℕ) : ℚ) := by
    exact_mod_cast lt_ten_pow_digitCount x.coefficient
  have he : x.adjusted + 1 = (digitCount x.coefficient : ℤ) + x.exponent := by
    unfold adjusted
    omega
  calc x.magnitude
      < ((10 ^ digitCount x.coefficient : ℕ) : ℚ) * 10 ^ x.exponent :=
        mul_lt_mul_of_pos_right hc (ten_pow_pos x.exponent)
    _ = (10 : ℚ) ^ (x.adjusted + 1) := by
        rw [he, zpow_add₀ (by norm_num), zpow_natCast]
        push_cast
        rfl

theorem magnitude_lt_of_adjusted_lt (hy : y.coefficient ≠ 0) (h : x.adjusted < y.adjusted) :
    x.magnitude < y.magnitude :=
  calc x.magnitude < (10 : ℚ) ^ (x.adjusted + 1) := magnitude_lt_ten_pow x
    _ ≤ (10 : ℚ) ^ y.adjusted := zpow_le_zpow_right₀ (by norm_num) h
    _ ≤ y.magnitude := ten_pow_adjusted_le hy

theorem magnitude_eq_of_le {e : ℤ} (h : e ≤ x.exponent) :
    x.magnitude = ((x.coefficient * 10 ^ (x.exponent - e).toNat : ℕ) : ℚ) * 10 ^ e := by
  have he : x.exponent = ((x.exponent - e).toNat : ℤ) + e := by omega
  rw [magnitude]
  conv_lhs => rw [he, zpow_add₀ (by norm_num), zpow_natCast]
  push_cast
  ring

theorem compare_coefficients (x y : Scaled) :
    compare (x.coefficient * 10 ^ (x.exponent - y.exponent).toNat)
      (y.coefficient * 10 ^ (y.exponent - x.exponent).toNat) = cmp x.magnitude y.magnitude := by
  let e := min x.exponent y.exponent
  have hx : (x.exponent - y.exponent).toNat = (x.exponent - e).toNat := by omega
  have hy : (y.exponent - x.exponent).toNat = (y.exponent - e).toNat := by omega
  rw [magnitude_eq_of_le (min_le_left x.exponent y.exponent),
    magnitude_eq_of_le (min_le_right x.exponent y.exponent), cmp_mul_pos_right (ten_pow_pos _),
    hx, hy, ← cmp_eq_compare, Nat.strictMono_cast.cmp_map_eq]

theorem compareMagnitude_eq (hx : x.coefficient ≠ 0) (hy : y.coefficient ≠ 0) :
    compareMagnitude x y = cmp x.magnitude y.magnitude := by
  unfold compareMagnitude
  rcases lt_trichotomy x.adjusted y.adjusted with h | h | h
  · rw [compare_lt_iff_lt.2 h, (cmp_eq_lt_iff _ _).2 (magnitude_lt_of_adjusted_lt hy h)]
  · rw [compare_eq_iff_eq.2 h]
    exact compare_coefficients x y
  · rw [compare_gt_iff_gt.2 h, (cmp_eq_gt_iff _ _).2 (magnitude_lt_of_adjusted_lt hx h)]

theorem sign_value (x : Scaled) :
    (x.sign = 0 ∧ x.value = 0) ∨ x.coefficient ≠ 0 ∧
      (x.sign = -1 ∧ x.negative = true ∧ x.value = -x.magnitude ∨
        x.sign = 1 ∧ x.negative = false ∧ x.value = x.magnitude) := by
  by_cases h : x.coefficient = 0
  · exact .inl ⟨by simp [sign, h], by simp [value, magnitude, h]⟩
  · cases hn : x.negative <;> simp [sign, value, h, hn]

/-- Decimals compare by their exact values. -/
theorem compare_eq_cmp (x y : Scaled) : x.compare y = cmp x.value y.value := by
  unfold Scaled.compare
  rcases sign_value x with ⟨sx, vx⟩ | ⟨hx, ⟨sx, nx, vx⟩ | ⟨sx, nx, vx⟩⟩ <;>
    rcases sign_value y with ⟨sy, vy⟩ | ⟨hy, ⟨sy, ny, vy⟩ | ⟨sy, ny, vy⟩⟩ <;>
    rw [sx, sy, vx, vy]
  -- only of two decimals on one side of zero the magnitudes matter, and below it they count the other way
  · exact (cmp_self_eq_eq (0 : ℚ)).symm
  · exact ((cmp_eq_gt_iff _ _).2 (by linarith [magnitude_pos hy])).symm
  · exact ((cmp_eq_lt_iff _ _).2 (by linarith [magnitude_pos hy])).symm
  · exact ((cmp_eq_lt_iff _ _).2 (by linarith [magnitude_pos hx])).symm
  · rw [nx, compare_eq_iff_eq.2 rfl]
    have hneg : StrictAnti fun q : ℚ => -q := fun _ _ h => neg_lt_neg h
    exact (compareMagnitude_eq hy hx).trans (hneg.cmp_map_eq x.magnitude y.magnitude).symm
  · exact ((cmp_eq_lt_iff _ _).2 (by linarith [magnitude_pos hx, magnitude_pos hy])).symm
  · exact ((cmp_eq_gt_iff _ _).2 (by linarith [magnitude_pos hx])).symm
  · exact ((cmp_eq_gt_iff _ _).2 (by linarith [magnitude_pos hx, magnitude_pos hy])).symm
  · rw [nx, compare_eq_iff_eq.2 rfl]
    exact compareMagnitude_eq hx hy

theorem compare_eq_lt_iff (x y : Scaled) : x.compare y = .lt ↔ x.value < y.value := by
  rw [compare_eq_cmp, cmp_eq_lt_iff]

theorem compare_eq_gt_iff (x y : Scaled) : x.compare y = .gt ↔ y.value < x.value := by
  rw [compare_eq_cmp, cmp_eq_gt_iff]

end Scaled

namespace Extended

def value : Extended → WithBot (WithTop ℚ)
  | .finite x => ((x.value : ℚ) : WithTop ℚ)
  | .infinity true => ⊥
  | .infinity false => ((⊤ : WithTop ℚ) : WithBot (WithTop ℚ))

theorem value_finite_strictMono :
    StrictMono fun q : ℚ => ((q : WithTop ℚ) : WithBot (WithTop ℚ)) :=
  WithBot.coe_strictMono.comp WithTop.coe_strictMono

theorem compare_eq_cmp (x y : Extended) : x.compare y = cmp x.value y.value := by
  have hlow (q : WithTop ℚ) : (⊥ : WithBot (WithTop ℚ)) < q := WithBot.bot_lt_coe q
  have hhigh (q : ℚ) : ((q : WithTop ℚ) : WithBot (WithTop ℚ)) < (⊤ : WithTop ℚ) :=
    WithBot.coe_strictMono (WithTop.coe_lt_top q)
  cases x with
  | finite x =>
    cases y with
    | finite y =>
      exact (Scaled.compare_eq_cmp x y).trans (value_finite_strictMono.cmp_map_eq x.value y.value).symm
    | infinity n =>
      cases n with
      | false => exact ((cmp_eq_lt_iff _ _).2 (hhigh x.value)).symm
      | true => exact ((cmp_eq_gt_iff _ _).2 (hlow x.value)).symm
  | infinity m =>
    cases y with
    | finite y =>
      cases m with
      | false => exact ((cmp_eq_gt_iff _ _).2 (hhigh y.value)).symm
      | true => exact ((cmp_eq_lt_iff _ _).2 (hlow y.value)).symm
    | infinity n =>
      cases m <;> cases n
      · exact (cmp_self_eq_eq _).symm
      · exact ((cmp_eq_gt_iff _ _).2 (hlow ⊤)).symm
      · exact ((cmp_eq_lt_iff _ _).2 (hlow ⊤)).symm
      · exact (cmp_self_eq_eq _).symm

end Extended

theorem Number.sameValue_iff {a b : Number} :
    a.sameValue b = true ↔ ∃ x y, a.extended? = some x ∧ b.extended? = some y ∧ x.value = y.value := by
  unfold sameValue compare?
  cases a.extended? with
  | none => simp
  | some x =>
    cases b.extended? with
    | none => simp
    | some y =>
      show (some (x.compare y) == some .eq) = true ↔ _
      rw [beq_iff_eq, Option.some.injEq, Extended.compare_eq_cmp, cmp_eq_eq_iff]
      simp

end Criteria
