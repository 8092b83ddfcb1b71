import Criteria.Proofs.CoercedOrder
import Mathlib.Data.List.Lex
import Mathlib.Data.String.Basic

namespace Criteria

def Number.place? : Number → Option (WithBot (WithTop ℚ))
  | .int n => some ((n : ℚ) : WithTop ℚ)
  | .float (.finite negative m e _) => some ((if negative then -(m * 2 ^ e) else m * 2 ^ e : ℚ) : WithTop ℚ)
  | .float (.infinity negative) => some (if negative then ⊥ else ((⊤ : WithTop ℚ) : WithBot (WithTop ℚ)))
  | .float .nan => none
  | .decimal (.finite x) => some ((x.value : ℚ) : WithTop ℚ)
  | .decimal (.infinity negative) => some (if negative then ⊥ else ((⊤ : WithTop ℚ) : WithBot (WithTop ℚ)))
  | .decimal (.nan ..) => none

@[simp] theorem Number.place?_eq (n : Number) : n.place? = n.extended?.map Extended.value := by
  cases n with
  | int k => simp [place?, extended?, Extended.value]
  | float x =>
    cases x with
    | finite negative m e hf =>
      rw [place?, extended?, Binary64.extended?, Option.map_some, Extended.value, Binary64.value_dyadic]
    | infinity negative => cases negative <;> rfl
    | nan => rfl
  | decimal d =>
    cases d with
    | finite x => rfl
    | infinity negative => cases negative <;> rfl
    | nan => rfl

def codePoints (s : Text) : List ℕ := s.map CodePoint.toNat

theorem codePoints_injective : Function.Injective codePoints :=
  List.map_injective_iff.2 fun _ _ => CodePoint.toNat_injective

/-- Texts are compared by the numbers of their code points, the first that differ first. -/
theorem compare_compares_codePoints (s t : Text) : (compare s t).Compares (codePoints s) (codePoints t) := by
  induction s generalizing t with
  | nil =>
    cases t with
    | nil => rfl
    | cons q t => exact List.nil_lt_cons _ _
  | cons p s ih =>
    cases t with
    | nil => exact List.nil_lt_cons _ _
    | cons q t =>
      have hcons : compare (p :: s) (q :: t) = (compare p.toNat q.toNat).then (compare s t) :=
        List.compareLex_cons_cons
      rw [hcons]
      show Ordering.Compares _ (p.toNat :: codePoints s) (q.toNat :: codePoints t)
      rcases Nat.lt_trichotomy p.toNat q.toNat with hlt | heq | hgt
      · rw [Nat.compare_eq_lt.2 hlt]
        exact List.Lex.rel hlt
      · have hrest := ih t
        rw [Nat.compare_eq_eq.2 heq, heq, Ordering.then]
        cases hc : compare s t <;> rw [hc] at hrest
        · exact List.Lex.cons hrest
        · exact congrArg _ hrest
        · exact List.Lex.cons hrest
      · rw [Nat.compare_eq_gt.2 hgt]
        exact List.Lex.rel hgt

theorem compare_eq_cmp_codePoints (s t : Text) :
    compare s t = @cmp _ Preorder.toLT LinearOrder.toDecidableLT (codePoints s) (codePoints t) :=
  (compare_compares_codePoints s t).inj (cmp_compares _ _)

section Orders
variable {settings : Settings} {a b : Value} {depth : Int}

theorem beq_eq_cmp {α : Type} [LinearOrder α] [BEq α] [LawfulBEq α] (x y : α) :
    (x == y) = (some (cmp x y) == some .eq) := by
  rw [Bool.eq_iff_iff, beq_iff_eq, beq_iff_eq, Option.some_inj, cmp_eq_eq_iff]

theorem compareAs_bools (settings : Settings) (p q : Bool) : CompareAs settings (.bool p) (.bool q) p q := by
  refine ⟨rfl, rfl, ?_, fun r => ?_⟩
  · cases p <;> cases q <;> rfl
  · cases p <;> cases q <;> rfl

theorem Number.compare?_of_place? {m n : Number} {x y : WithBot (WithTop ℚ)} (hm : m.place? = some x)
    (hn : n.place? = some y) :
    m.compare? n = some (cmp x y) ∧ m.orderInvalid n = false ∧ m.equalityInvalid n = false := by
  rw [place?_eq] at hm hn
  obtain ⟨x, hx, rfl⟩ := Option.map_eq_some_iff.1 hm
  obtain ⟨y, hy, rfl⟩ := Option.map_eq_some_iff.1 hn
  have hvalid : m.orderInvalid n = false := by
    rw [orderInvalid, hx, hy]
    rfl
  refine ⟨?_, hvalid, Bool.eq_false_iff.2 fun hinvalid => ?_⟩
  · rw [compare?, hx, hy, ← Extended.compare_eq_cmp]
  · rw [orderInvalid_of_equalityInvalid hinvalid] at hvalid
    exact Bool.noConfusion hvalid

theorem compareAs_numbers {m n : Number} {x y : WithBot (WithTop ℚ)} (hm : m.place? = some x) (hn : n.place? = some y) :
    CompareAs settings (.number m) (.number n) x y := by
  obtain ⟨hcompare, horder, hequality⟩ := Number.compare?_of_place? hm hn
  refine ⟨rfl, rfl, ?_, fun r => ?_⟩
  · refine primitiveEqual_of_kind_eq rfl (by simp [Value.kind]) rfl ?_
    show (if m.equalityInvalid n then none else some (m.sameValue n)) = _
    rw [hequality, if_neg Bool.false_ne_true, Number.sameValue, hcompare]
  · show (if m.orderInvalid n then Except.error (Fault.breakdown .invalidOperation) else .ok (m.compare? n)).map _ = _
    rw [horder, if_neg Bool.false_ne_true, hcompare]
    rfl

theorem compareAs_texts (settings : Settings) (s t : Text) :
    CompareAs settings (.text s) (.text t) (codePoints s) (codePoints t) := by
  refine ⟨rfl, rfl, ?_, fun r => ?_⟩
  · have hequal : (s == t) = (codePoints s == codePoints t) := by
      rw [Bool.eq_iff_iff, beq_iff_eq, beq_iff_eq, codePoints_injective.eq_iff]
    exact congrArg Except.ok (hequal.trans (beq_eq_cmp _ _))
  · show Except.ok ((some (compare s t)).any r.holds) = _
    rw [compare_eq_cmp_codePoints]

theorem compareAs_dates {i j : Int} (ha : a.epochMillis? = some i) (hb : b.epochMillis? = some j) :
    CompareAs settings a b i j := by
  have hleaf {v : Value} {i : Int} (h : v.epochMillis? = some i) : v.isObject = false := by
    cases v <;> first | rfl | exact nomatch h
  refine ⟨hleaf ha, hleaf hb, ?_, fun r => ?_⟩
  · rw [primitiveEqual, ha, hb]
    exact congrArg Except.ok (beq_eq_cmp i j)
  · rw [related, order?, ha, hb, cmp_eq_compare]
    rfl

end Orders

/-- The values that have a place in the order of their kind: truth values, numbers unless they are undefined, texts and
dates. -/
inductive Value.HasPlace : Value → Prop
  | bool (p : Bool) : HasPlace (.bool p)
  | number {n : Number} {x : WithBot (WithTop ℚ)} : n.place? = some x → HasPlace (.number n)
  | text (s : Text) : HasPlace (.text s)
  | date {v : Value} {i : Int} : v.epochMillis? = some i → HasPlace v

def Comparison.Holds (c : Comparison) (settings : Settings) (depth : Int) (a b : Value) : Prop :=
  c.verdict settings a b depth = .ok true

/-- All comparisons of two values are answered, and as it is in one linear order: they are equal, the first is greater
or it is less, and only one of these. -/
structure OneOrder (settings : Settings) (depth : Int) (a b : Value) : Prop where
  answered (c : Comparison) : ∃ r, c.verdict settings a b depth = .ok r
  trichotomy :
    let Equal := Comparison.equality.Holds settings depth a b
    let Greater := (Comparison.relation .gt).Holds settings depth a b
    let Less := (Comparison.relation .lt).Holds settings depth a b
    Equal ∧ ¬Greater ∧ ¬Less ∨ ¬Equal ∧ Greater ∧ ¬Less ∨ ¬Equal ∧ ¬Greater ∧ Less
  member : Comparison.membership.Holds settings depth a b ↔ Comparison.equality.Holds settings depth a b
  greaterOrEqual : (Comparison.relation .gte).Holds settings depth a b ↔
    (Comparison.relation .gt).Holds settings depth a b ∨ Comparison.equality.Holds settings depth a b
  lessOrEqual : (Comparison.relation .lte).Holds settings depth a b ↔
    (Comparison.relation .lt).Holds settings depth a b ∨ Comparison.equality.Holds settings depth a b
  mirrored : (Comparison.relation .gt).Holds settings depth a b ↔ (Comparison.relation .lt).Holds settings depth b a
  symmetric : Comparison.equality.Holds settings depth a b ↔ Comparison.equality.Holds settings depth b a

section Laws
variable {α : Type} [LinearOrder α] {settings : Settings} {a b v : Value} {x y z : α} {depth : Int}

theorem CompareAs.holds_iff (h : CompareAs settings a b x y) (hd : depth < settings.maxDepth) (c : Comparison) :
    c.Holds settings depth a b ↔ c.Relates x y := by
  rw [Comparison.Holds, h.verdict hd, Except.ok.injEq, decide_eq_true_iff]

theorem CompareAs.oneOrder (h : CompareAs settings a b x y) (h' : CompareAs settings b a y x)
    (hd : depth < settings.maxDepth) : OneOrder settings depth a b where
  answered c := ⟨_, h.verdict hd c⟩
  trichotomy := by
    simp only [h.holds_iff hd, Comparison.Relates]
    rcases lt_trichotomy x y with hlt | rfl | hgt
    · exact .inr (.inr ⟨hlt.ne, hlt.not_gt, hlt⟩)
    · exact .inl ⟨rfl, lt_irrefl x, lt_irrefl x⟩
    · exact .inr (.inl ⟨hgt.ne', hgt, hgt.not_gt⟩)
  member := by rw [h.holds_iff hd, h.holds_iff hd]; rfl
  greaterOrEqual := by
    simp only [h.holds_iff hd, Comparison.Relates]
    rw [ge_iff_le, le_iff_lt_or_eq, gt_iff_lt, eq_comm]
  lessOrEqual := by
    simp only [h.holds_iff hd, Comparison.Relates]
    exact le_iff_lt_or_eq
  mirrored := by rw [h.holds_iff hd, h'.holds_iff hd]; rfl
  symmetric := by
    rw [h.holds_iff hd, h'.holds_iff hd]
    exact eq_comm

theorem Comparison.Relates.trans {c : Comparison} (h : c.Relates x y) (h' : c.Relates y z) : c.Relates x z := by
  cases c with
  | equality => exact Eq.trans h h'
  | membership => exact Eq.trans h h'
  | relation r =>
    cases r with
    | gt => exact gt_trans h h'
    | lt => exact lt_trans h h'
    | gte => exact ge_trans h h'
    | lte => exact le_trans h h'

end Laws

namespace Value
variable {v : Value}

theorem eq_bool_of_kind (hk : v.kind = .bool) : ∃ p, v = .bool p := by
  cases v <;> first | exact ⟨_, rfl⟩ | exact nomatch hk

theorem eq_text_of_kind (hk : v.kind = .string) : ∃ s, v = .text s := by
  cases v <;> first | exact ⟨_, rfl⟩ | exact nomatch hk

theorem epochMillis?_of_kind (hk : v.kind = .date) : ∃ i, v.epochMillis? = some i := by
  cases v <;> first | exact ⟨_, rfl⟩ | exact nomatch hk

theorem HasPlace.eq_number (h : v.HasPlace) (hk : v.kind = .number) : ∃ n x, v = .number n ∧ n.place? = some x := by
  cases h with
  | number hx => exact ⟨_, _, rfl, hx⟩
  | bool | text => exact nomatch hk
  | date hi => exact nomatch (kind_of_epochMillis? hi).symm.trans hk

theorem HasPlace.kind (h : v.HasPlace) : v.kind ∈ [Kind.bool, .number, .string, .date] := by
  cases h with
  | bool | number | text => simp [Value.kind]
  | date hi =>
    rw [kind_of_epochMillis? hi]
    decide

end Value

/-- The values of one kind that have a place compare as their places in one linear order. -/
theorem exists_places (settings : Settings) {k : Kind} (hk : k ∈ [Kind.bool, .number, .string, .date]) :
    ∃ (α : Type) (_ : LinearOrder α) (place : Value → α), ∀ a b : Value, a.HasPlace → b.HasPlace → a.kind = k →
      b.kind = k → CompareAs settings a b (place a) (place b) := by
  simp only [List.mem_cons, List.not_mem_nil, or_false] at hk
  -- a value of another kind, or without a place, is put anywhere
  rcases hk with rfl | rfl | rfl | rfl
  · refine ⟨Bool, inferInstance, fun v => decide (v.number? = some (.int 1)), fun a b _ _ ha hb => ?_⟩
    obtain ⟨p, rfl⟩ := Value.eq_bool_of_kind ha
    obtain ⟨q, rfl⟩ := Value.eq_bool_of_kind hb
    cases p <;> cases q <;> exact compareAs_bools settings _ _
  · refine ⟨WithBot (WithTop ℚ), inferInstance, fun v => (v.number?.bind Number.place?).getD ⊥,
      fun a b ha hb hka hkb => ?_⟩
    obtain ⟨m, x, rfl, hx⟩ := ha.eq_number hka
    obtain ⟨n, y, rfl, hy⟩ := hb.eq_number hkb
    show CompareAs settings _ _ (m.place?.getD ⊥) (n.place?.getD ⊥)
    rw [hx, hy]
    exact compareAs_numbers hx hy
  · refine ⟨List ℕ, inferInstance, fun v => (v.text?.map codePoints).getD [], fun a b _ _ ha hb => ?_⟩
    obtain ⟨s, rfl⟩ := Value.eq_text_of_kind ha
    obtain ⟨t, rfl⟩ := Value.eq_text_of_kind hb
    exact compareAs_texts settings s t
  · refine ⟨ℤ, inferInstance, fun v => v.epochMillis?.getD 0, fun a b _ _ ha hb => ?_⟩
    obtain ⟨i, hi⟩ := Value.epochMillis?_of_kind ha
    obtain ⟨j, hj⟩ := Value.epochMillis?_of_kind hb
    show CompareAs settings _ _ (a.epochMillis?.getD 0) (b.epochMillis?.getD 0)
    rw [hi, hj]
    exact compareAs_dates hi hj

/-- Within a kind equality and the relations are those of one linear order, and so they are between a number and a
text that counts as one. Of numbers in all representations it is the order of their exact values, of texts that of
their code points, of dates that of their milliseconds. -/
theorem comparisons_form_exact_order (settings : Settings) (depth : Int) (hd : depth < settings.maxDepth) :
    (∀ a b : Value, a.HasPlace → b.HasPlace → a.kind = b.kind → OneOrder settings depth a b) ∧
    (∀ a b v : Value, a.HasPlace → b.HasPlace → v.HasPlace → a.kind = b.kind → b.kind = v.kind → ∀ c : Comparison,
      c.Holds settings depth a b → c.Holds settings depth b v → c.Holds settings depth a v) ∧
    (∀ (c : Comparison) p q, c.verdict settings (.bool p) (.bool q) depth = .ok (decide (c.Relates p q))) ∧
    (∀ (c : Comparison) m n x y, Number.place? m = some x → Number.place? n = some y →
      c.verdict settings (.number m) (.number n) depth = .ok (decide (c.Relates x y))) ∧
    (∀ (c : Comparison) s t,
      c.verdict settings (.text s) (.text t) depth = .ok (decide (c.Relates (codePoints s) (codePoints t)))) ∧
    (∀ (c : Comparison) a b i j, Value.epochMillis? a = some i → Value.epochMillis? b = some j →
      c.verdict settings a b depth = .ok (decide (c.Relates i j))) ∧
    (settings.coerce = true → ∀ n q s y, Number.CountsAs n q → Text.Denotes s y →
      OneOrder settings depth (.number n) (.text s) ∧ OneOrder settings depth (.text s) (.number n)) := by
  refine ⟨fun a b ha hb hk => ?_, fun a b v ha hb hv hk hk' c hab hbv => ?_,
    fun c p q => (compareAs_bools settings p q).verdict hd c,
    fun c m n x y hx hy => (compareAs_numbers hx hy).verdict hd c,
    fun c s t => (compareAs_texts settings s t).verdict hd c,
    fun c a b i j hi hj => (compareAs_dates hi hj).verdict hd c, fun hc n q s y hn hs => ?_⟩
  · obtain ⟨α, _, place, hplace⟩ := exists_places settings ha.kind
    exact (hplace a b ha hb rfl hk.symm).oneOrder (hplace b a hb ha hk.symm rfl) hd
  · obtain ⟨α, _, place, hplace⟩ := exists_places settings ha.kind
    have hkb : b.kind = a.kind := hk.symm
    have hkv : v.kind = a.kind := (hk.trans hk').symm
    rw [(hplace a b ha hb rfl hkb).holds_iff hd] at hab
    rw [(hplace b v hb hv hkb hkv).holds_iff hd] at hbv
    rw [(hplace a v ha hv rfl hkv).holds_iff hd]
    exact hab.trans hbv
  · obtain ⟨hleft, hright⟩ := compareAs_number_text hc hn hs
    exact ⟨hleft.oneOrder hright hd, hright.oneOrder hleft hd⟩

/-- An integer lies between a double and a decimal that no double tells apart from it. A negative zero is equal to a
zero with ten places, an infinity is above an integer, and a text with a character beyond the first plane is above one
with the last of that plane. -/
theorem comparisons_form_exact_order_beyond_doubles :
    let coercing : Settings := ⟨100, true, by decide⟩
    let double : Value := .number (.float (.finite false 4503599627370496 1 (by decide)))
    let successor : Value := .int 9007199254740993
    let above : Value := .number (.decimal (.finite ⟨false, 90071992547409935, -1⟩))
    let less : Comparison := .relation .lt
    let day : Date := ⟨1970, 1, 1, by decide⟩
    (0 : Int) < coercing.maxDepth ∧
    (double.HasPlace ∧ successor.HasPlace ∧ above.HasPlace) ∧
    OneOrder coercing 0 double successor ∧
    (less.Holds coercing 0 double successor ∧ less.Holds coercing 0 successor above ∧ less.Holds coercing 0 double above) ∧
    Comparison.equality.verdict coercing (.number (.float (.zero true))) (.number (.decimal (.finite ⟨false, 0, -10⟩))) 0 =
      .ok true ∧
    (Comparison.relation .gte).verdict coercing (.number (.float (.infinity false))) successor 0 = .ok true ∧
    less.verdict coercing (.text "\uffff") (.text "😀") 0 = .ok true ∧
    less.verdict coercing (.date day) (.moment ⟨day, ⟨0, 0, 0, 1000⟩, none⟩) 0 = .ok true ∧
    OneOrder coercing 0 successor (.text "9007199254740992.5") := by
  intro coercing double successor above less day
  have hd : (0 : Int) < coercing.maxDepth := by decide
  obtain ⟨horder, htrans, -, hnumbers, htexts, hdates, hmixed⟩ := comparisons_form_exact_order coercing 0 hd
  have hdouble : double.HasPlace := .number rfl
  have hsuccessor : successor.HasPlace := .number rfl
  have habove : above.HasPlace := .number rfl
  have hlow : less.Holds coercing 0 double successor := by
    unfold Comparison.Holds
    decide +kernel
  have hhigh : less.Holds coercing 0 successor above := by
    unfold Comparison.Holds
    decide +kernel
  have hshort : IsShort 9007199254740993 := by
    unfold IsShort
    decide
  have hread : Text.Denotes "9007199254740992.5" ⟨false, 90071992547409925, -1⟩ :=
    Text.denotes_iff.2 (by decide +kernel)
  refine ⟨hd, ⟨hdouble, hsuccessor, habove⟩, horder _ _ hdouble hsuccessor rfl, ⟨hlow, hhigh, ?_⟩, ?_, ?_, ?_, ?_, ?_⟩
  · exact htrans _ _ _ hdouble hsuccessor habove rfl rfl less hlow hhigh
  · refine (hnumbers .equality _ _ _ _ rfl rfl).trans (congrArg _ (decide_eq_true ?_))
    norm_num [Comparison.Relates, Scaled.value, Scaled.magnitude]
  · exact (hnumbers (.relation .gte) _ _ _ _ rfl rfl).trans (congrArg _ (decide_eq_true (WithBot.coe_le_coe.2 le_top)))
  · exact (htexts less _ _).trans (congrArg _ (decide_eq_true (by decide)))
  · exact (hdates less _ _ _ _ rfl rfl).trans (congrArg _ (decide_eq_true (by decide)))
  · exact (hmixed rfl _ _ _ _ (.int hshort) hread).1

end Criteria
