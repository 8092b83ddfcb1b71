import Criteria.Proofs.Coercion
import Criteria.Proofs.OperatorForms
import Criteria.Proofs.WrittenNumber
import Mathlib.Order.Defs.LinearOrder

namespace Criteria

/-- The ways to compare a value with another: by equality, as the one candidate of a membership, or by order. -/
inductive Comparison where
  | equality
  | membership
  | relation (r : Relation)

namespace Comparison

def condition : Comparison → Value → Value
  | equality, b => b
  | membership, b => .mapping [(.text Operator.membership.name, .list [b])]
  | relation r, b => .mapping [(.text (Operator.relation r).name, b)]

def verdict (settings : Settings) (c : Comparison) (a b : Value) (depth : Int) : Verdict :=
  holds settings (c.condition b) a depth

def holds : Comparison → Ordering → Bool
  | equality, o => o == .eq
  | membership, o => o == .eq
  | relation r, o => r.holds o

section Linear
variable {α : Type} [LinearOrder α]

/-- What a comparison says of two things in a linear order. -/
def Relates : Comparison → α → α → Prop
  | equality, x, y => x = y
  | membership, x, y => x = y
  | relation .gt, x, y => x > y
  | relation .lt, x, y => x < y
  | relation .gte, x, y => x ≥ y
  | relation .lte, x, y => x ≤ y

@[simp] theorem holds_cmp_iff (c : Comparison) (x y : α) : c.holds (cmp x y) = true ↔ c.Relates x y := by
  have heq : (cmp x y == .eq) = true ↔ x = y := by rw [beq_iff_eq, cmp_eq_eq_iff]
  cases c with
  | equality => exact heq
  | membership => exact heq
  | relation r =>
    cases r with
    | gt => exact beq_iff_eq.trans (cmp_eq_gt_iff x y)
    | lt => exact beq_iff_eq.trans (cmp_eq_lt_iff x y)
    | gte => exact bne_iff_ne.trans ((not_congr (cmp_eq_lt_iff x y)).trans not_lt)
    | lte => exact bne_iff_ne.trans ((not_congr (cmp_eq_gt_iff x y)).trans not_lt)

instance (c : Comparison) (x y : α) : Decidable (c.Relates x y) := decidable_of_iff _ (c.holds_cmp_iff x y)

theorem holds_cmp (c : Comparison) (x y : α) : c.holds (cmp x y) = decide (c.Relates x y) :=
  Bool.eq_iff_iff.2 ((c.holds_cmp_iff x y).trans decide_eq_true_iff.symm)

end Linear
end Comparison

/-- Two primitive values have this order, or none, and all comparisons go by it. -/
structure HasOrder (settings : Settings) (a b : Value) (o : Option Ordering) : Prop where
  left : a.isObject = false
  right : b.isObject = false
  equal : primitiveEqual settings a b = .ok (o == some .eq)
  related (r : Relation) : related settings r a b = .ok (o.any r.holds)

section Orders
variable {settings : Settings} {a b : Value} {o : Option Ordering} {depth : Int}

theorem HasOrder.verdict (h : HasOrder settings a b o) (hd : depth < settings.maxDepth) (c : Comparison) :
    c.verdict settings a b depth = .ok (o.any c.holds) := by
  obtain ⟨hmapping, hleaf⟩ := Value.isObject_eq_false_iff.1 h.left
  -- an operator is applied one level below the value
  have hbelow : depth + 1 ≤ settings.maxDepth := hd
  have hequal : (o == some .eq) = o.any fun o => o == .eq := by cases o <;> rfl
  have hoperator {op : Operator} : Operator.ofKey? (.text op.name) = some op := Operator.named?_name op
  cases c with
  | equality =>
    show holds settings b a depth = _
    rw [holds_of_primitive h.right, broadcast_of_leaf hleaf, withinDepth_of_le hd.le, hmapping, h.equal, hequal]
    rfl
  | membership =>
    show holds settings (.mapping _) a depth = _
    rw [holds_mapping, broadcast_of_leaf hleaf, withinDepth_of_le hd.le, entriesHold_singleton h.left,
      applyOperator_membership hoperator, withinDepth_of_le hbelow]
    show (primitiveEqual settings a b).or (.ok false) = _
    rw [Verdict.or_false, h.equal, hequal]
    rfl
  | relation r =>
    show holds settings (.mapping _) a depth = _
    rw [holds_mapping, broadcast_of_leaf hleaf, withinDepth_of_le hd.le, entriesHold_singleton h.left,
      applyOperator_relation hoperator, withinDepth_of_le hbelow, h.related]
    rfl

def CompareAs {α : Type} [LinearOrder α] (settings : Settings) (a b : Value) (x y : α) : Prop :=
  HasOrder settings a b (some (cmp x y))

theorem CompareAs.verdict {α : Type} [LinearOrder α] {x y : α} (h : CompareAs settings a b x y)
    (hd : depth < settings.maxDepth) (c : Comparison) :
    c.verdict settings a b depth = .ok (decide (c.Relates x y)) := by
  rw [HasOrder.verdict h hd, Option.any_some, c.holds_cmp]

end Orders

def Reading.order? : Reading → Reading → Option Ordering
  | .finite x, .finite y => some (x.compare y)
  | _, _ => none

section Readings
variable {settings : Settings} {a b : Value} {r r' : Reading} {depth : Int}

theorem numericOrder?_of_readings (hc : settings.coerce = true) (hmix : mixesNumberAndText a b = true)
    (ha : a.reading = .ok r) (hb : b.reading = .ok r') : numericOrder? settings a b = .ok (r.order? r') := by
  rw [numericOrder?, hc, hmix, Bool.and_self, if_pos rfl, ha, hb]
  cases r <;> cases r' <;> rfl

/-- All comparisons of a number and a text go by what the two are read as. -/
theorem hasOrder_of_readings (hc : settings.coerce = true) (hmix : mixesNumberAndText a b = true)
    (ha : a.reading = .ok r) (hb : b.reading = .ok r') : HasOrder settings a b (r.order? r') := by
  have horder := numericOrder?_of_readings hc hmix ha hb
  obtain ⟨hk, hp, hleft, hright⟩ : a.kind ≠ b.kind ∧ (a.kind.isAbsent && b.kind.isAbsent) = false ∧
      a.isObject = false ∧ b.isObject = false := by
    rcases mixesNumberAndText_iff.1 hmix with ⟨ha, hb⟩ | ⟨ha, hb⟩ <;>
      simp [Value.isObject, Value.isMapping, Value.isSequence, Kind.isAbsent, ha, hb]
  refine ⟨hleft, hright, ?_, fun relation => ?_⟩
  · rw [primitiveEqual_of_kind_ne hk hp, horder]
    rfl
  · rw [Criteria.related, order?_of_kind_ne hk, horder]
    rfl

end Readings

section Exact
variable {settings : Settings} {n : Number} {q : ℚ} {s : Text} {y : Scaled} {depth : Int}

/-- A number and a text that denotes a decimal compare as their values. -/
theorem compareAs_number_text (hc : settings.coerce = true) (hn : n.CountsAs q) (hs : s.Denotes y) :
    CompareAs settings (.number n) (.text s) q y.value ∧ CompareAs settings (.text s) (.number n) y.value q := by
  obtain ⟨x, hread, rfl⟩ := hn.reading
  have hleft := hasOrder_of_readings hc rfl hread (reading_of_denotes hs)
  have hright := hasOrder_of_readings hc rfl (reading_of_denotes hs) hread
  rw [Reading.order?, Scaled.compare_eq_cmp] at hleft hright
  exact ⟨hleft, hright⟩

theorem hasOrder_number_other (hc : settings.coerce = true) (hn : n.CountsAs q)
    (hs : ∀ y, ¬s.Denotes y) :
    HasOrder settings (.number n) (.text s) none ∧ HasOrder settings (.text s) (.number n) none := by
  obtain ⟨x, hread, -⟩ := hn.reading
  rcases reading_of_not_denotes hs with hs | hs
  · exact ⟨hasOrder_of_readings hc rfl hread hs, hasOrder_of_readings hc rfl hs hread⟩
  · exact ⟨hasOrder_of_readings hc rfl hread hs, hasOrder_of_readings hc rfl hs hread⟩

end Exact

structure Unrelated (settings : Settings) (a b : Value) : Prop where
  equal : primitiveEqual settings a b = .ok false
  related (r : Relation) : related settings r a b = .ok false

/-- Two values compare under one of two settings as they do under the other. -/
structure ComparedAlike (settings settings' : Settings) (a b : Value) : Prop where
  equal : primitiveEqual settings a b = primitiveEqual settings' a b
  related (r : Relation) : related settings r a b = related settings' r a b

section Others
variable {settings settings' : Settings} {a b : Value}

/-- What is no number and no text is not read, whatever it is compared with. -/
theorem mixesNumberAndText_of_other (hn : a.kind ≠ .number) (hs : a.kind ≠ .string) :
    mixesNumberAndText a b = false ∧ mixesNumberAndText b a = false := by
  simp [mixesNumberAndText, hn, hs]

theorem comparedAlike_of_unmixed (hmix : mixesNumberAndText a b = false) : ComparedAlike settings settings' a b := by
  have hnumeric : numericOrder? settings a b = numericOrder? settings' a b := by
    rw [numericOrder?_of_unmixed hmix, numericOrder?_of_unmixed hmix]
  exact ⟨primitiveEqual_congr hnumeric, fun _ => related_congr hnumeric⟩

theorem unrelated_of_unmixed (hk : a.kind ≠ b.kind) (hp : (a.kind.isAbsent && b.kind.isAbsent) = false)
    (hmix : mixesNumberAndText a b = false) : Unrelated settings a b := by
  refine ⟨?_, fun r => ?_⟩
  · rw [primitiveEqual_of_kind_ne hk hp, numericOrder?_of_unmixed hmix]
    rfl
  · rw [related, order?_of_kind_ne hk, numericOrder?_of_unmixed hmix]
    rfl

theorem unrelated_of_other (hn : a.kind ≠ .number) (hs : a.kind ≠ .string) (hb : b.kind = .number ∨ b.kind = .string) :
    Unrelated settings a b ∧ Unrelated settings b a := by
  obtain ⟨hleft, hright⟩ := mixesNumberAndText_of_other (b := b) hn hs
  obtain ⟨hk, hp⟩ : a.kind ≠ b.kind ∧ b.kind.isAbsent = false := by
    rcases hb with hb | hb <;> rw [hb]
    · exact ⟨hn, rfl⟩
    · exact ⟨hs, rfl⟩
  exact ⟨unrelated_of_unmixed hk (by rw [hp, Bool.and_false]) hleft,
    unrelated_of_unmixed hk.symm (by rw [hp, Bool.false_and]) hright⟩

end Others

/-- When numeric texts count as numbers, a number and a text compare as the exact values of the two, in either order,
and a text that denotes no decimal compares with no number. Each integer that has a text, each finite decimal and each
double that is a number has such a value, which its own text denotes. What is no number and no text is never read as
one. -/
theorem coerced_comparison_exact (settings : Settings) (hc : settings.coerce = true) (depth : Int)
    (hd : depth < settings.maxDepth) :
    (∀ n q s (c : Comparison), Number.CountsAs n q →
      (∀ y, Text.Denotes s y →
        c.verdict settings (.number n) (.text s) depth = .ok (decide (c.Relates q y.value)) ∧
          c.verdict settings (.text s) (.number n) depth = .ok (decide (c.Relates y.value q))) ∧
      ((∀ y, ¬Text.Denotes s y) →
        c.verdict settings (.number n) (.text s) depth = .ok false ∧
          c.verdict settings (.text s) (.number n) depth = .ok false)) ∧
    ((∀ k, IsShort k → Number.CountsAs (.int k) k) ∧ (∀ x, Number.CountsAs (.decimal (.finite x)) x.value) ∧
      ∀ negative m e (hf : Fits m e), ∃ q, Number.CountsAs (.float (.finite negative m e hf)) q) ∧
    (∀ n q, Number.CountsAs n q → (∀ x, n = .decimal (.finite x) → Decimal.inRange x = true) →
      ∃ t y, n.text = .ok t ∧ Numeral.Denotes t.toList y ∧ y.value = q) ∧
    ∀ a b : Value, a.kind ≠ .number → a.kind ≠ .string →
      (∀ other, ComparedAlike settings other a b ∧ ComparedAlike settings other b a) ∧
      (b.kind = .number ∨ b.kind = .string → Unrelated settings a b ∧ Unrelated settings b a) := by
  refine ⟨fun n q s c hn => ⟨fun y hs => ?_, fun hs => ?_⟩,
    ⟨fun _ => .int, fun _ => .decimal, fun negative _ _ => Number.exists_countsAs_float negative⟩,
    fun _ _ => Number.CountsAs.text, fun a b hn hs => ⟨fun other => ?_, unrelated_of_other hn hs⟩⟩
  · obtain ⟨hleft, hright⟩ := compareAs_number_text hc hn hs
    exact ⟨hleft.verdict hd c, hright.verdict hd c⟩
  · obtain ⟨hleft, hright⟩ := hasOrder_number_other hc hn hs
    exact ⟨hleft.verdict hd c, hright.verdict hd c⟩
  · obtain ⟨hleft, hright⟩ := mixesNumberAndText_of_other (b := b) hn hs
    exact ⟨comparedAlike_of_unmixed hleft, comparedAlike_of_unmixed hright⟩

/-- A tenth as a double counts as what it is written as, and equals a tenth in the digits of another script. The last
digit tells an integer beyond all doubles from a text; an exponent beyond all powers that could be written out tells
two decimals apart; and the name of an infinity is no decimal. -/
theorem coerced_comparison_exact_to_the_last_digit :
    let coercing : Settings := ⟨100, true, by decide⟩
    let tenth : Binary64 := .finite false 7205759403792794 (-56) (by decide)
    let tiny : Scaled := ⟨false, 1, -999999999999⟩
    coercing.coerce = true ∧ (0 : Int) < coercing.maxDepth ∧
    Comparison.equality.verdict coercing (.number (.float tenth)) (.text " +٠_.١٠\n") 0 = .ok true ∧
    (Comparison.relation .lt).verdict coercing (.text "9007199254740992.99999") (.int 9007199254740993) 0 = .ok true ∧
    (Comparison.relation .gt).verdict coercing (.number (.decimal (.finite tiny))) (.text "1e-1000000000000") 0 =
      .ok true ∧
    (Comparison.relation .lte).verdict coercing (.number (.float tenth)) (.text "Infinity") 0 = .ok false ∧
    Unrelated coercing (.bool true) (.text "1") := by
  intro coercing tenth tiny
  have hd : (0 : Int) < coercing.maxDepth := by decide
  obtain ⟨hcompare, ⟨hint, hdecimal, -⟩, -, hother⟩ := coerced_comparison_exact coercing rfl 0 hd
  have htenth : Numeral.Denotes tenth.text.toList ⟨false, 1, -1⟩ :=
    Numeral.decimal?_eq_finite_iff.1 (by decide +kernel)
  have hdigits : Text.Denotes " +٠_.١٠\n" ⟨false, 10, -2⟩ := Text.denotes_iff.2 (by decide +kernel)
  have hbelow : Text.Denotes "9007199254740992.99999" ⟨false, 900719925474099299999, -5⟩ :=
    Text.denotes_iff.2 (by decide +kernel)
  have htiny : Text.Denotes "1e-1000000000000" ⟨false, 1, -1000000000000⟩ := Text.denotes_iff.2 (by decide +kernel)
  have hinfinity : ∀ y, ¬Text.Denotes "Infinity" y := by
    intro y h
    have hname : (Text.ofString "Infinity").chars?.bind Numeral.decimal? = some (.infinity false) := by decide +kernel
    exact nomatch hname.symm.trans (Text.denotes_iff.1 h)
  have hshort : IsShort 9007199254740993 := by
    unfold IsShort
    decide
  refine ⟨rfl, hd, ?_, ?_, ?_, ?_, ?_⟩
  · refine ((hcompare _ _ _ .equality (.float htenth)).1 _ hdigits).1.trans (congrArg _ (decide_eq_true ?_))
    norm_num [Comparison.Relates, Scaled.value, Scaled.magnitude]
  · refine ((hcompare _ _ _ (.relation .lt) (hint _ hshort)).1 _ hbelow).2.trans (congrArg _ (decide_eq_true ?_))
    norm_num [Comparison.Relates, Scaled.value, Scaled.magnitude]
  · refine ((hcompare _ _ _ (.relation .gt) (hdecimal tiny)).1 _ htiny).1.trans (congrArg _ (decide_eq_true ?_))
    have hvalue (e : ℤ) : (⟨false, 1, e⟩ : Scaled).value = 10 ^ e := by simp [Scaled.value, Scaled.magnitude]
    show (⟨false, 1, -999999999999⟩ : Scaled).value > (⟨false, 1, -1000000000000⟩ : Scaled).value
    rw [hvalue, hvalue]
    exact zpow_lt_zpow_right₀ (by decide) (by decide)
  · exact ((hcompare _ _ _ (.relation .lte) (.float htenth)).2 hinfinity).1
  · exact ((hother (.bool true) (.text "1") (by decide) (by decide)).2 (.inr rfl)).1

end Criteria
