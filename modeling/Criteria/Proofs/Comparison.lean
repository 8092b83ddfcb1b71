import Criteria.Comparison
import Criteria.Proofs.Numbers

namespace Criteria
variable {settings : Settings} {a b : Value} {f : Fault}

inductive Fault.OfPrimitives : Fault → Prop where
  | invalidOperation : Fault.OfPrimitives (.breakdown .invalidOperation)
  | integerTooLong : Fault.OfPrimitives (.breakdown .integerTooLong)

def IsShort (n : Int) : Prop := digitCount n.natAbs ≤ Numeral.digitLimit

/-- The breakdowns that the numbers in two values are to blame for: one in the first has no order with one in
the second, or an integer in either has no text. -/
inductive NumberFault (a b : Value) : Fault → Prop where
  | unordered {m n : Number} : m ∈ a.numbers → n ∈ b.numbers → m.orderInvalid n = true →
    NumberFault a b (.breakdown .invalidOperation)
  | tooLong {n : Int} : Number.int n ∈ a.numbers ∨ Number.int n ∈ b.numbers → ¬IsShort n →
    NumberFault a b (.breakdown .integerTooLong)

theorem NumberFault.ofPrimitives (h : NumberFault a b f) : f.OfPrimitives := by
  cases h with
  | unordered => exact .invalidOperation
  | tooLong => exact .integerTooLong

theorem NumberFault.mono {a' b' : Value} (h : NumberFault a b f) (ha : a.numbers ⊆ a'.numbers)
    (hb : b.numbers ⊆ b'.numbers) : NumberFault a' b' f := by
  cases h with
  | unordered hm hn h => exact .unordered (ha hm) (hb hn) h
  | tooLong hn hs => exact .tooLong (hn.imp (@ha _) (@hb _)) hs

theorem integerText_of_isShort {n : Int} (h : IsShort n) : integerText n = .ok (toString n) := by
  rw [integerText, if_neg (Nat.not_lt.2 h)]

theorem integerText_eq_error {n : Int} (h : integerText n = .error f) :
    f = .breakdown .integerTooLong ∧ ¬IsShort n := by
  unfold integerText at h
  by_cases hn : Numeral.digitLimit < digitCount n.natAbs
  · rw [if_pos hn] at h
    have hs : ¬IsShort n := by
      unfold IsShort
      omega
    exact ⟨(Except.error.inj h).symm, hs⟩
  · rw [if_neg hn] at h
    exact nomatch h

theorem reading_eq_error (h : a.reading = .error f) :
    f = .breakdown .integerTooLong ∧ ∃ n, Number.int n ∈ a.numbers ∧ ¬IsShort n := by
  unfold Value.reading at h
  split at h
  · obtain ⟨hf, hn⟩ := integerText_eq_error (map_eq_error h)
    exact ⟨hf, _, List.mem_singleton.2 rfl, hn⟩
  · exact nomatch h
  · exact nomatch h
  · split at h <;> exact nomatch h
  · exact nomatch h

theorem NumberFault.of_reading (h : a.reading = .error f ∨ b.reading = .error f) : NumberFault a b f := by
  rcases h with h | h
  · obtain ⟨rfl, n, hn, hs⟩ := reading_eq_error h
    exact .tooLong (.inl hn) hs
  · obtain ⟨rfl, n, hn, hs⟩ := reading_eq_error h
    exact .tooLong (.inr hn) hs

theorem numericOrder?_eq_error (h : numericOrder? settings a b = .error f) : NumberFault a b f := by
  unfold numericOrder? at h
  split at h
  · rcases bind_eq_error h with ha | ⟨x, -, h⟩
    · exact .of_reading (.inl ha)
    · cases x with
      | notNumeric => exact nomatch h
      | notFinite =>
        rcases bind_eq_error h with hb | ⟨y, -, h⟩
        · exact .of_reading (.inr hb)
        · exact nomatch h
      | finite x =>
        rcases bind_eq_error h with hb | ⟨y, -, h⟩
        · exact .of_reading (.inr hb)
        · cases y <;> exact nomatch h
  · exact nomatch h

theorem Number.orderInvalid_of_equalityInvalid {m n : Number} (h : m.equalityInvalid n = true) :
    m.orderInvalid n = true := by
  have hsignaling {k : Number} (hk : k.isSignaling = true) : k.extended? = none ∧ k.isDecimal = true := by
    cases k with
    | decimal d =>
      cases d with
      | nan => exact ⟨rfl, rfl⟩
      | _ => exact nomatch hk
    | _ => exact nomatch hk
  rw [equalityInvalid, Bool.or_eq_true] at h
  rcases h with h | h <;> simp [orderInvalid, hsignaling h]

theorem Value.equal?_eq_none (ha : a.isObject = false) (hkind : a.kind = b.kind)
    (h : a.equal? b = none) : ∃ m n, a = .number m ∧ b = .number n ∧ m.equalityInvalid n = true := by
  cases a with
  | number m =>
    cases b with
    | number n =>
      have hinvalid : m.equalityInvalid n = true := by simpa [equal?, number?] using h
      exact ⟨m, n, rfl, rfl, hinvalid⟩
    | _ => exact nomatch hkind
  | bool p =>
    cases b with
    | bool q =>
      -- they count as numbers, but as numbers that do not signal
      simp [equal?, number?, Number.equalityInvalid, Number.isSignaling] at h
    | _ => exact nomatch hkind
  | list => exact nomatch ha
  | tuple => exact nomatch ha
  | mapping => exact nomatch ha
  | _ => cases b <;> simp [equal?, number?] at h

theorem primitiveEqual_eq_error (ha : a.isObject = false) (h : primitiveEqual settings a b = .error f) :
    NumberFault a b f := by
  unfold primitiveEqual at h
  split at h
  · exact nomatch h
  · split at h
    · exact nomatch h
    · split at h
      · next hkind =>
        split at h
        · exact nomatch h
        · next hnone =>
          cases h
          obtain ⟨m, n, rfl, rfl, hinvalid⟩ := Value.equal?_eq_none ha hkind hnone
          exact .unordered (List.mem_singleton.2 rfl) (List.mem_singleton.2 rfl)
            (Number.orderInvalid_of_equalityInvalid hinvalid)
      · exact numericOrder?_eq_error (map_eq_error h)

theorem sameKindOrder?_eq_error (h : sameKindOrder? a b = .error f) : NumberFault a b f := by
  unfold sameKindOrder? at h
  split at h
  · exact nomatch h
  · split at h
    · next hinvalid =>
      cases h
      exact .unordered (List.mem_singleton.2 rfl) (List.mem_singleton.2 rfl) hinvalid
    · exact nomatch h
  · exact nomatch h
  · exact nomatch h
  · exact nomatch h

theorem related_eq_error {r : Relation} (h : related settings r a b = .error f) : NumberFault a b f := by
  have ho := map_eq_error h
  unfold order? at ho
  split at ho
  · exact nomatch ho
  · split at ho
    · exact sameKindOrder?_eq_error ho
    · exact numericOrder?_eq_error ho

theorem Value.kind_of_epochMillis? {m : Int} (h : a.epochMillis? = some m) : a.kind = .date := by
  cases a <;> first | rfl | exact nomatch h

theorem primitiveEqual_of_kind_eq {r : Bool} (hk : a.kind = b.kind) (hdate : a.kind ≠ .date)
    (hp : a.kind.isAbsent = false) (h : a.equal? b = some r) : primitiveEqual settings a b = .ok r := by
  unfold primitiveEqual
  split
  · next hm _ => exact absurd (Value.kind_of_epochMillis? hm) hdate
  · rw [← hk, hp, if_neg (by decide), if_pos rfl, h]

theorem mixesNumberAndText_iff : mixesNumberAndText a b = true ↔
    a.kind = .number ∧ b.kind = .string ∨ a.kind = .string ∧ b.kind = .number := by
  simp [mixesNumberAndText]

theorem numericOrder?_of_unmixed (h : mixesNumberAndText a b = false) : numericOrder? settings a b = .ok none := by
  rw [numericOrder?, h, Bool.and_false]
  rfl

/-- Values of two kinds have the order that they are read to have, and no other. -/
theorem order?_of_kind_ne (hk : a.kind ≠ b.kind) : order? settings a b = numericOrder? settings a b := by
  unfold order?
  split
  · next hm hn => exact absurd ((Value.kind_of_epochMillis? hm).trans (Value.kind_of_epochMillis? hn).symm) hk
  · rw [if_neg hk]

theorem primitiveEqual_of_kind_ne (hk : a.kind ≠ b.kind) (hp : (a.kind.isAbsent && b.kind.isAbsent) = false) :
    primitiveEqual settings a b = (numericOrder? settings a b).map (· == some .eq) := by
  unfold primitiveEqual
  split
  · next hm hn => exact absurd ((Value.kind_of_epochMillis? hm).trans (Value.kind_of_epochMillis? hn).symm) hk
  · rw [if_neg hk]
    split
    · next habsent =>
      have hmix : mixesNumberAndText a b = false := by
        rw [Bool.eq_false_iff, ne_eq, mixesNumberAndText_iff]
        rintro (⟨ha, hb⟩ | ⟨ha, hb⟩)
        · rw [ha, hb] at habsent
          exact nomatch habsent
        · rw [ha, hb] at habsent
          exact nomatch habsent
      rw [numericOrder?_of_unmixed hmix, hp]
      rfl
    · rfl

theorem Value.kind_of_isObject (hb : b.isObject = true) : b.kind = .mapping ∨ b.kind = .sequence := by
  simpa [isObject, isMapping, isSequence] using hb

theorem Value.kind_ne_of_isObject (ha : a.isObject = false) (hb : b.isObject = true) : a.kind ≠ b.kind := by
  intro h
  unfold isObject isMapping isSequence at ha hb
  rw [h, hb] at ha
  exact Bool.noConfusion ha

theorem numericOrder?_of_isObject (hb : b.isObject = true) : numericOrder? settings a b = .ok none := by
  have hmix : mixesNumberAndText a b = false := by
    rcases Value.kind_of_isObject hb with h | h <;> simp [mixesNumberAndText, h]
  exact numericOrder?_of_unmixed hmix

theorem primitiveEqual_of_isObject (ha : a.isObject = false) (hb : b.isObject = true) :
    primitiveEqual settings a b = .ok false := by
  have habsent : b.kind.isAbsent = false := by
    rcases Value.kind_of_isObject hb with h | h <;> rw [h] <;> rfl
  rw [primitiveEqual_of_kind_ne (Value.kind_ne_of_isObject ha hb) (by rw [habsent, Bool.and_false]),
    numericOrder?_of_isObject hb]
  rfl

theorem related_of_isObject {r : Relation} (ha : a.isObject = false) (hb : b.isObject = true) :
    related settings r a b = .ok false := by
  rw [related, order?_of_kind_ne (Value.kind_ne_of_isObject ha hb), numericOrder?_of_isObject hb]
  rfl

end Criteria
