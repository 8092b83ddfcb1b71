import Criteria.Proofs.ExactValue
import Criteria.Proofs.Leaves
import Criteria.Value.Equality

namespace Criteria

/-- What can be a key: a primitive, or a tuple of what can be a key. -/
inductive Value.IsKey : Value → Prop where
  | primitive {v : Value} : v.isObject = false → IsKey v
  | tuple {items : List Value} : (∀ x ∈ items, IsKey x) → IsKey (.tuple items)

namespace Value
variable {k a c : Value} {n : Number}

theorem equal?_of_number? (hk : k.number? = some n) :
    k.equal? c = some true ↔
      ∃ m, c.number? = some m ∧ n.equalityInvalid m = false ∧ n.sameValue m = true := by
  cases k with
  | bool b => cases c <;> simp_all [equal?, number?]
  | number n' => cases c <;> simp_all [equal?, number?]
  | _ => exact nomatch hk

theorem equal?_number_iff (hc : c.number? = some n) :
    a.equal? c = some true ↔
      ∃ m, a.number? = some m ∧ m.equalityInvalid n = false ∧ m.sameValue n = true := by
  cases ha : a.number? with
  | some m => rw [equal?_of_number? ha]; simp [hc]
  | none =>
    cases c with
    | bool b => cases a <;> simp_all [equal?, number?]
    | number n' => cases a <;> simp_all [equal?, number?]
    | _ => exact nomatch hc

theorem equal?_number_euclidean (hk : k.number? = some n) (h : k.equal? c = some true)
    (ha : a.equal? c = some true) : a.equal? k = some true := by
  obtain ⟨m, hc, hnm, hv⟩ := (equal?_of_number? hk).1 h
  obtain ⟨l, hl, hlm, hw⟩ := (equal?_number_iff hc).1 ha
  refine (equal?_number_iff hk).2 ⟨l, hl, ?_, ?_⟩
  · simp only [Number.equalityInvalid, Bool.or_eq_false_iff] at hnm hlm ⊢
    exact ⟨hlm.1, hnm.1⟩
  · obtain ⟨x, z, hx, hz, hxz⟩ := Number.sameValue_iff.1 hv
    obtain ⟨y, z', hy, hz', hyz⟩ := Number.sameValue_iff.1 hw
    rw [hz] at hz'
    cases hz'
    exact Number.sameValue_iff.2 ⟨y, x, hy, hx, hyz.trans hxz.symm⟩

@[simp] theorem equal?_tuple_iff {items : List Value} :
    a.equal? (tuple items) = some true ↔ ∃ xs, a = tuple xs ∧ itemsEqual? xs items = some true := by
  cases a <;> simp [equal?, number?]

@[simp] theorem itemsEqual?_cons_iff {x y : Value} {xs ys : List Value} :
    itemsEqual? (x :: xs) (y :: ys) = some true ↔
      x.equal? y = some true ∧ itemsEqual? xs ys = some true := by
  rw [itemsEqual?]
  cases x.equal? y with
  | none => simp
  | some b => cases b <;> simp

theorem itemsEqual?_euclidean {ks xs zs : List Value}
    (ih : ∀ k ∈ ks, ∀ a c : Value, k.equal? c = some true → a.equal? c = some true →
      a.equal? k = some true)
    (h : itemsEqual? ks zs = some true) (hx : itemsEqual? xs zs = some true) :
    itemsEqual? xs ks = some true := by
  induction ks generalizing xs zs with
  | nil =>
    cases zs with
    | nil => exact hx
    | cons z zs => exact nomatch h
  | cons k ks ihs =>
    cases zs with
    | nil => exact nomatch h
    | cons z zs =>
      cases xs with
      | nil => exact nomatch hx
      | cons x xs =>
        rw [List.forall_mem_cons] at ih
        obtain ⟨hk, hks⟩ := itemsEqual?_cons_iff.1 h
        obtain ⟨hxz, hxs⟩ := itemsEqual?_cons_iff.1 hx
        exact itemsEqual?_cons_iff.2 ⟨ih.1 x z hk hxz, ihs ih.2 hks hxs⟩

theorem moment_same_euclidean {l m n : Moment} (h : m.same n = true) (hl : l.same n = true) :
    l.same m = true := by
  simp only [Moment.same, Bool.and_eq_true, beq_iff_eq] at h hl ⊢
  exact ⟨hl.1.trans h.1.symm, hl.2.trans h.2.symm⟩

/-- What is the same as a third value is the same as a key that is. -/
theorem IsKey.equal?_euclidean (hk : IsKey k) (h : k.equal? c = some true)
    (ha : a.equal? c = some true) : a.equal? k = some true := by
  induction hk generalizing a c with
  | @primitive v hv =>
    cases v with
    | bool b => exact equal?_number_euclidean rfl h ha
    | number n => exact equal?_number_euclidean rfl h ha
    | moment m =>
      cases c <;> cases a <;> simp_all [equal?, number?]
      exact moment_same_euclidean h ha
    | list _ => exact nomatch hv
    | tuple _ => exact nomatch hv
    | mapping _ => exact nomatch hv
    | _ => cases c <;> simp_all [equal?, number?]
  | @tuple ks _ ih =>
    cases c with
    | tuple zs =>
      obtain ⟨xs, rfl, hx⟩ := equal?_tuple_iff.1 ha
      rw [equal?] at h ⊢
      exact itemsEqual?_euclidean (fun k hk a c => ih k hk) h hx
    | _ => simp [equal?, number?] at h

end Value

namespace Entries
variable {before after : List (Value × Value)} {key k v : Value}

@[simp] theorem get?_append : get? (before ++ after) key = (get? before key).or (get? after key) := by
  unfold get?
  rw [List.find?_append]
  cases before.find? fun e => e.1.sameKey key <;> rfl

@[simp] theorem get?_cons : get? ((k, v) :: after) key = if k.sameKey key then some v else get? after key := by
  unfold get?
  rw [List.find?_cons]
  cases k.sameKey key <;> rfl

theorem get?_replace (before after : List (Value × Value)) (k v w key : Value) :
    get? (before ++ (k, v) :: after) key = get? (before ++ (k, w) :: after) key ∨
      get? (before ++ (k, v) :: after) key = some v ∧ get? (before ++ (k, w) :: after) key = some w := by
  simp only [get?_append, get?_cons]
  cases get? before key with
  | some x => exact .inl rfl
  | none =>
    by_cases hk : k.sameKey key
    · rw [if_pos hk, if_pos hk]
      exact .inr ⟨rfl, rfl⟩
    · rw [if_neg hk, if_neg hk]
      exact .inl rfl

@[simp] theorem get?_eq_none_iff {entries : List (Value × Value)} :
    get? entries key = none ↔ ∀ e ∈ entries, e.1.sameKey key = false := by
  unfold get?
  simp

theorem exists_mem_of_get?_eq_some {entries : List (Value × Value)} (h : get? entries key = some v) :
    ∃ e ∈ entries, e.2 = v := by
  obtain ⟨e, he, hv⟩ := Option.map_eq_some_iff.1 h
  exact ⟨e, List.mem_of_find?_eq_some he, hv⟩

theorem get?_eq_none_of_sameKey {entries : List (Value × Value)} (hk : k.IsKey)
    (hnew : get? entries k = none) (h : k.sameKey key = true) : get? entries key = none := by
  rw [get?_eq_none_iff] at hnew ⊢
  intro e he
  by_contra hsame
  rw [Bool.not_eq_false, Value.sameKey, beq_iff_eq] at hsame
  rw [Value.sameKey, beq_iff_eq] at h
  have hek := hk.equal?_euclidean h hsame
  have hno := hnew e he
  rw [Value.sameKey, hek] at hno
  exact nomatch hno

theorem get?_insert_new (hk : k.IsKey) (hnew : get? (before ++ after) k = none) :
    get? (before ++ (k, v) :: after) key =
      if k.sameKey key then some v else get? (before ++ after) key := by
  rw [get?_append, get?_cons, get?_append]
  by_cases h : k.sameKey key
  · have hnone := get?_eq_none_of_sameKey hk hnew h
    rw [get?_append, Option.or_eq_none_iff] at hnone
    rw [if_pos h, if_pos h, hnone.1]
    rfl
  · rw [if_neg h, if_neg h]

end Entries
end Criteria
