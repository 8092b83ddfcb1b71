import Criteria.Proofs.Eligibility
import Mathlib.Data.List.Forall2

namespace Criteria

/-- Two computations end with the same fault or with related results; but anything goes once the first
ends with an excused fault. -/
inductive EndAlike {ε α β : Type} (Excused : ε → Prop) (R : α → β → Prop) :
    Except ε α → Except ε β → Prop where
  | excused {e : ε} {r : Except ε β} : Excused e → EndAlike Excused R (.error e) r
  | fault {e : ε} : EndAlike Excused R (.error e) (.error e)
  | result {x : α} {y : β} : R x y → EndAlike Excused R (.ok x) (.ok y)

namespace EndAlike

section Steps
variable {ε α β γ δ : Type} {Excused : ε → Prop} {R : α → β → Prop} {S : γ → δ → Prop}
  {r : Except ε α} {r' : Except ε β}

theorem bind {g : α → Except ε γ} {g' : β → Except ε δ} (h : EndAlike Excused R r r')
    (hg : ∀ x y, R x y → EndAlike Excused S (g x) (g' y)) :
    EndAlike Excused S (r >>= g) (r' >>= g') := by
  cases h with
  | excused he => exact .excused he
  | fault => exact .fault
  | result hr => exact hg _ _ hr

theorem map {g : α → γ} {g' : β → δ} (h : EndAlike Excused R r r')
    (hg : ∀ x y, R x y → S (g x) (g' y)) : EndAlike Excused S (r.map g) (r'.map g') := by
  cases h with
  | excused he => exact .excused he
  | fault => exact .fault
  | result hr => exact .result (hg _ _ hr)

theorem mapError {ε' : Type} {Excused' : ε' → Prop} {g : ε → ε'}
    (h : EndAlike (fun e => Excused' (g e)) R r r') :
    EndAlike Excused' R (r.mapError g) (r'.mapError g) := by
  cases h with
  | excused he => exact .excused he
  | fault => exact .fault
  | result hr => exact .result hr

end Steps

section Verdicts
variable {Excused : Fault → Prop} {r r' s s' : Verdict}

theorem refl (r : Verdict) : EndAlike Excused Eq r r := by
  cases r with
  | error f => exact .fault
  | ok b => exact .result rfl

theorem or (hr : EndAlike Excused Eq r r') (hs : EndAlike Excused Eq s s') :
    EndAlike Excused Eq (r.or s) (r'.or s') := by
  cases hr with
  | excused he => exact .excused he
  | fault => exact .fault
  | @result b _ hb =>
    cases hb
    cases b with
    | false => exact hs
    | true => exact .result rfl

theorem and (hr : EndAlike Excused Eq r r') (hs : EndAlike Excused Eq s s') :
    EndAlike Excused Eq (r.and s) (r'.and s') := by
  cases hr with
  | excused he => exact .excused he
  | fault => exact .fault
  | @result b _ hb =>
    cases hb
    cases b with
    | false => exact .result rfl
    | true => exact hs

variable {α β : Type} {f : α → Verdict} {g : β → Verdict} {xs : List α} {ys : List β}

theorem any (h : List.Forall₂ (fun x y => EndAlike Excused Eq (f x) (g y)) xs ys) :
    EndAlike Excused Eq (Verdict.any (xs.map f)) (Verdict.any (ys.map g)) := by
  induction h with
  | nil => exact .result rfl
  | cons hxy _ ih => exact hxy.or ih

theorem all (h : List.Forall₂ (fun x y => EndAlike Excused Eq (f x) (g y)) xs ys) :
    EndAlike Excused Eq (Verdict.all (xs.map f)) (Verdict.all (ys.map g)) := by
  induction h with
  | nil => exact .result rfl
  | cons hxy _ ih => exact hxy.and ih

theorem joined {j : Junction} (h : List.Forall₂ (fun x y => EndAlike Excused Eq (f x) (g y)) xs ys) :
    EndAlike Excused Eq (Verdict.joined j (xs.map f)) (Verdict.joined j (ys.map g)) := by
  cases j with
  | all => exact .all h
  | any => exact .any h

end Verdicts
end EndAlike

/-- What two runs have left to their limits at their depths: just the same, or the second no less, while
the first is excused when it fails for its limit. -/
inductive Headroom (Excused : Fault → Prop) (settings settings' : Settings) : Int → Int → Prop where
  | same {depth : Int} : settings = settings' → Headroom Excused settings settings' depth depth
  | more {depth depth' : Int} : settings.coerce = settings'.coerce →
    (∀ r : Refusal, r.category = .depth → Excused (.refusal r)) →
    settings.maxDepth - depth ≤ settings'.maxDepth - depth' →
    Headroom Excused settings settings' depth depth'

namespace Headroom
variable {Excused : Fault → Prop} {settings settings' : Settings} {depth depth' : Int}

theorem coerce_eq (h : Headroom Excused settings settings' depth depth') :
    settings.coerce = settings'.coerce := by
  cases h with
  | same hs => rw [hs]
  | more hc => exact hc

theorem succ (h : Headroom Excused settings settings' depth depth') :
    Headroom Excused settings settings' (depth + 1) (depth' + 1) := by
  cases h with
  | same hs => exact .same hs
  | more hc he hle => exact .more hc he (by omega)

theorem withinDepth {r r' : Verdict} (h : Headroom Excused settings settings' depth depth')
    (hr : EndAlike Excused Eq r r') :
    EndAlike Excused Eq (withinDepth settings depth r) (withinDepth settings' depth' r') := by
  cases h with
  | same hs =>
    rw [hs]
    unfold Criteria.withinDepth
    split
    · exact .fault
    · exact hr
  | more hc he hle =>
    unfold Criteria.withinDepth
    by_cases hd : settings.maxDepth < depth
    · rw [if_pos hd]
      exact .excused (he _ rfl)
    · -- where the first run has room the second has
      rw [if_neg hd, if_neg (by omega)]
      exact hr

end Headroom

/-- A relation between values that evaluation cannot see through: related values have related members,
and what has none is the same on both sides or absent on both. -/
structure Unseen (V : Value → Value → Prop) : Prop where
  undefined : V .undefined .undefined
  list {xs ys : List Value} : List.Forall₂ V xs ys → V (.list xs) (.list ys)
  items {v w : Value} {xs : List Value} : V v w → v.items? = some xs →
    ∃ ys, w.items? = some ys ∧ List.Forall₂ V xs ys
  fields {es : List (Value × Value)} {w : Value} : V (.mapping es) w →
    ∃ fs, w = .mapping fs ∧ ∀ key, V (Entries.get es key) (Entries.get fs key)
  primitive {v w : Value} : V v w → v.isObject = false →
    w = v ∨ v.kind.isAbsent = true ∧ w.kind.isAbsent = true

namespace Unseen
variable {V : Value → Value → Prop} {v w : Value}

theorem items?_eq_none (hV : Unseen V) (h : V v w) (hv : v.items? = none) : w.items? = none := by
  rcases Value.mapping_or_primitive hv with ⟨es, rfl⟩ | hprim
  · obtain ⟨fs, rfl, -⟩ := hV.fields h
    rfl
  · rcases hV.primitive h hprim with rfl | ⟨-, hw⟩
    · exact hv
    · cases w <;> first | rfl | exact nomatch hw

theorem isMapping_eq_false (hV : Unseen V) (h : V v w) (hv : v.isObject = false) :
    w.isMapping = false := by
  rcases hV.primitive h hv with rfl | ⟨-, hw⟩
  · exact (Value.isObject_eq_false_iff.1 hv).1
  · cases w <;> first | rfl | exact nomatch hw

theorem spread (hV : Unseen V) (h : V v w) : List.Forall₂ V v.spread w.spread := by
  cases hv : v.items? with
  | none =>
    rw [Value.spread, Value.spread, hv, hV.items?_eq_none h hv]
    exact .cons h .nil
  | some xs =>
    obtain ⟨ys, hw, hxy⟩ := hV.items h hv
    rw [Value.spread, Value.spread, hv, hw]
    exact hxy

end Unseen

theorem unseen_eq : Unseen Eq where
  undefined := rfl
  list h := by
    rw [List.forall₂_eq_eq_eq] at h
    rw [h]
  items := by
    rintro v _ xs rfl hv
    exact ⟨xs, hv, List.forall₂_same.2 fun x _ => rfl⟩
  fields := by
    rintro es _ rfl
    exact ⟨es, rfl, fun key => rfl⟩
  primitive h _ := .inl h.symm

section Comparing
variable {settings settings' : Settings} {v w c : Value} {r : Relation}

theorem numericOrder?_congr (h : settings.coerce = settings'.coerce) :
    numericOrder? settings v c = numericOrder? settings' v c := by
  rw [numericOrder?, numericOrder?, h]

theorem primitiveEqual_congr (h : numericOrder? settings v c = numericOrder? settings' v c) :
    primitiveEqual settings v c = primitiveEqual settings' v c := by
  unfold primitiveEqual
  rw [h]

theorem related_congr (h : numericOrder? settings v c = numericOrder? settings' v c) :
    related settings r v c = related settings' r v c := by
  unfold related order?
  rw [h]

theorem Value.undefined_or_null (hv : v.kind.isAbsent = true) : v = undefined ∨ v = null := by
  cases v <;> simp_all [kind, Kind.isAbsent]

theorem primitiveEqual_of_absent (hv : v.kind.isAbsent = true) :
    primitiveEqual settings v c = .ok c.kind.isAbsent := by
  rcases Value.undefined_or_null hv with rfl | rfl <;> cases c <;> rfl

theorem related_of_absent (hv : v.kind.isAbsent = true) : related settings r v c = .ok false := by
  have hn : numericOrder? settings v c = .ok none := by
    rcases Value.undefined_or_null hv with rfl | rfl <;> exact numericOrder?_of_unmixed rfl
  have ho : order? settings v c = .ok none := by
    rcases Value.undefined_or_null hv with rfl | rfl <;> cases c <;> first | rfl | exact hn
  rw [related, ho]
  rfl

/-- No comparison sees through the relation. -/
theorem Unseen.primitiveEqual_eq {V : Value → Value → Prop} (hV : Unseen V)
    (hc : settings.coerce = settings'.coerce) (h : V v w) (hv : v.isObject = false) :
    primitiveEqual settings v c = primitiveEqual settings' w c := by
  rcases hV.primitive h hv with rfl | ⟨ha, hb⟩
  · exact primitiveEqual_congr (numericOrder?_congr hc)
  · rw [primitiveEqual_of_absent ha, primitiveEqual_of_absent hb]

theorem Unseen.related_eq {V : Value → Value → Prop} (hV : Unseen V)
    (hc : settings.coerce = settings'.coerce) (h : V v w) (hv : v.isObject = false) :
    related settings r v c = related settings' r w c := by
  rcases hV.primitive h hv with rfl | ⟨ha, hb⟩
  · exact related_congr (numericOrder?_congr hc)
  · rw [related_of_absent ha, related_of_absent hb]

end Comparing

section Matching
variable {Excused : Fault → Prop} {V : Value → Value → Prop} {settings settings' : Settings}
  {v w c key operand : Value} {depth depth' : Int}

theorem broadcast_alike (hV : Unseen V) {test test' : Value → Int → Verdict}
    (ht : ∀ l m, l.items? = none → V l m → ∀ d d', Headroom Excused settings settings' d d' →
      EndAlike Excused Eq (test l d) (test' m d'))
    (hd : Headroom Excused settings settings' depth depth') (h : V v w) :
    EndAlike Excused Eq (broadcast settings test depth v) (broadcast settings' test' depth' w) := by
  induction v using Value.sequence_induction generalizing w depth depth' with
  | leaf v hv =>
    rw [broadcast_of_leaf hv, broadcast_of_leaf (hV.items?_eq_none h hv)]
    exact hd.withinDepth (ht v w hv h depth depth' hd)
  | sequence v xs hv ih =>
    obtain ⟨ys, hw, hxy⟩ := hV.items h hv
    rw [broadcast_of_items? hv, broadcast_of_items? hw, broadcastItems_eq, broadcastItems_eq]
    have hitems := (List.forall₂_and_left xs ys).2 ⟨ih, hxy⟩
    exact hd.withinDepth (.any (hitems.imp fun x y h => h.1 hd.succ h.2))

theorem applyOperator_alike_of (hV : Unseen V) (hv : v.isObject = false) (h : V v w)
    (hd : Headroom Excused settings settings' depth depth')
    (hi : ∀ inner, operand = .mapping inner → ∀ e ∈ inner, ∀ d d',
      Headroom Excused settings settings' d d' →
      EndAlike Excused Eq (applyOperator settings e.1 e.2 v d) (applyOperator settings' e.1 e.2 w d')) :
    EndAlike Excused Eq (applyOperator settings key operand v depth)
      (applyOperator settings' key operand w depth') := by
  have hc := hd.coerce_eq
  cases hk : Operator.ofKey? key with
  | none =>
    rw [applyOperator_unknown hk, applyOperator_unknown hk]
    exact hd.withinDepth (.refl _)
  | some op =>
    cases op with
    | relation r =>
      rw [applyOperator_relation hk, applyOperator_relation hk, hV.related_eq hc h hv]
      exact hd.withinDepth (.refl _)
    | membership =>
      rw [applyOperator_membership hk, applyOperator_membership hk]
      rw [anyItem_eq, anyItem_eq]
      refine hd.withinDepth (.any (List.forall₂_same.2 fun x _ => ?_))
      rw [hV.primitiveEqual_eq hc h hv]
      exact .refl _
    | junction j =>
      -- the operators of a junction use up one level on both sides
      by_cases hm : operand.isMapping
      · obtain ⟨inner, rfl⟩ := Value.isMapping_iff.1 hm
        have hin := fun e he => hi inner rfl e he _ _ hd.succ
        rw [applyOperator_junction hk, applyOperator_junction hk]
        exact hd.withinDepth (.joined (List.forall₂_same.2 hin))
      · rw [Bool.not_eq_true] at hm
        rw [applyOperator_of_not_mapping hk hm, applyOperator_of_not_mapping hk hm]
        exact hd.withinDepth (.refl _)

theorem applyOperator_alike (hV : Unseen V) (hv : v.isObject = false) (h : V v w)
    (hd : Headroom Excused settings settings' depth depth') :
    EndAlike Excused Eq (applyOperator settings key operand v depth)
      (applyOperator settings' key operand w depth') := by
  -- operators that stand in an operand are applied to the same two values, one level deeper
  induction operand using Value.mapping_induction generalizing key depth depth' with
  | step operand ih =>
    apply applyOperator_alike_of hV hv h hd
    intro inner ho e hin d d' hd
    exact ih inner ho e hin hd

theorem entriesHold_alike (hV : Unseen V) {entries : List (Value × Value)} (hv : v.items? = none)
    (h : V v w) (hd : Headroom Excused settings settings' depth depth')
    (hf : ∀ e ∈ entries, ∀ x y, V x y → ∀ d d', Headroom Excused settings settings' d d' →
      EndAlike Excused Eq (fieldHolds settings e.2 x d) (fieldHolds settings' e.2 y d')) :
    EndAlike Excused Eq (entriesHold settings entries v depth)
      (entriesHold settings' entries w depth') := by
  -- the two are mappings or the two are none, so they are asked for fields both or for operators both
  rcases Value.mapping_or_primitive hv with ⟨es, rfl⟩ | hprim
  · obtain ⟨fs, rfl, hget⟩ := hV.fields h
    rw [entriesHold, entriesHold, allFieldsHold_eq, allFieldsHold_eq]
    exact .all (List.forall₂_same.2 fun e he => hf e he _ _ (hget e.1) _ _ hd.succ)
  · have hm := (Value.isObject_eq_false_iff.1 hprim).1
    rw [entriesHold_of_not_mapping hm, entriesHold_of_not_mapping (hV.isMapping_eq_false h hprim),
      allOperatorsHold_eq, allOperatorsHold_eq]
    exact .all (List.forall₂_same.2 fun e _ => applyOperator_alike hV hprim h hd.succ)

theorem holds_alike_of_primitive (hV : Unseen V) (hc : c.isObject = false)
    (hd : Headroom Excused settings settings' depth depth') (h : V v w) :
    EndAlike Excused Eq (holds settings c v depth) (holds settings' c w depth') := by
  rw [holds_of_primitive hc, holds_of_primitive hc]
  refine broadcast_alike hV (fun l m hl hlm d d' hd => ?_) hd h
  rcases Value.mapping_or_primitive hl with ⟨es, rfl⟩ | hprim
  · obtain ⟨fs, rfl, -⟩ := hV.fields hlm
    exact .result rfl
  · have hm := (Value.isObject_eq_false_iff.1 hprim).1
    simp only [hm, hV.isMapping_eq_false hlm hprim, Bool.false_eq_true, if_false]
    rw [hV.primitiveEqual_eq hd.coerce_eq hlm hprim]
    exact .refl _

theorem holds_and_fieldHolds_alike (hV : Unseen V) (c : Value) :
    (∀ v w, V v w → ∀ d d', Headroom Excused settings settings' d d' →
      EndAlike Excused Eq (holds settings c v d) (holds settings' c w d')) ∧
    ∀ v w, V v w → ∀ d d', Headroom Excused settings settings' d d' →
      EndAlike Excused Eq (fieldHolds settings c v d) (fieldHolds settings' c w d') := by
  -- conditions are the same on both sides, so the induction is on them; values differ within the relation
  induction c using Value.nested_induction with
  | primitive c hprim =>
    have hh : ∀ v w, V v w → ∀ d d', Headroom Excused settings settings' d d' →
        EndAlike Excused Eq (holds settings c v d) (holds settings' c w d') :=
      fun v w h d d' hd => holds_alike_of_primitive hV hprim hd h
    refine ⟨hh, fun v w h d d' hd => ?_⟩
    have hc := (Value.isObject_eq_false_iff.1 hprim).2
    rw [fieldHolds_of_leaf hc, fieldHolds_of_leaf hc]
    exact hh v w h d d' hd
  | sequence c items hi ih =>
    have ha : ∀ v w, V v w → ∀ d d', Headroom Excused settings settings' d d' →
        EndAlike Excused Eq (anyHolds settings items v d) (anyHolds settings' items w d') := by
      intro v w h d d' hd
      rw [anyHolds_eq, anyHolds_eq]
      exact .any (List.forall₂_same.2 fun a ha => (ih a ha).1 v w h d d' hd)
    constructor
    · intro v w h d d' hd
      rw [holds_of_items? hi, holds_of_items? hi]
      exact broadcast_alike hV (fun l m _ hlm d d' hd => ha l m hlm _ _ hd.succ) hd h
    · intro v w h d d' hd
      rw [fieldHolds_of_items? hi, fieldHolds_of_items? hi]
      exact ha v w h d d' hd
  | mapping entries ih =>
    have hh : ∀ v w, V v w → ∀ d d', Headroom Excused settings settings' d d' →
        EndAlike Excused Eq (holds settings (.mapping entries) v d)
          (holds settings' (.mapping entries) w d') := by
      intro v w h d d' hd
      rw [holds_mapping, holds_mapping]
      refine broadcast_alike hV (fun l m hl hlm d d' hd => ?_) hd h
      exact entriesHold_alike hV hl hlm hd fun e he => (ih e he).2.2
    exact ⟨hh, hh⟩

theorem holds_alike (hV : Unseen V) (hd : Headroom Excused settings settings' depth depth')
    (h : V v w) : EndAlike Excused Eq (holds settings c v depth) (holds settings' c w depth') :=
  (holds_and_fieldHolds_alike hV c).1 v w h depth depth' hd

end Matching

section Following
variable {Excused : Fault → Prop} {V : Value → Value → Prop} {settings settings' : Settings}
  {v w : Value} {segment : Text} {depth depth' : Nat}

theorem descend_alike_of_lt (hd : Headroom Excused settings settings' depth depth')
    (hlt : (settings.maxDepth : Int) < depth) :
    EndAlike (fun r => Excused (.refusal r)) V (v.descend settings.maxDepth segment depth)
      (w.descend settings'.maxDepth segment depth') := by
  rw [Value.descend_of_lt hlt]
  cases hd with
  | same hs =>
    rw [← hs, Value.descend_of_lt (by omega)]
    exact .fault
  | more hc he hle => exact .excused (he _ rfl)

theorem Headroom.le (hd : Headroom Excused settings settings' depth depth')
    (hle : (depth : Int) ≤ settings.maxDepth) : (depth' : Int) ≤ settings'.maxDepth := by
  cases hd with
  | same hs => rw [← hs]; omega
  | more hc he hm => omega

theorem descendItems_alike (hV : Unseen V) {xs ys : List Value} (h : List.Forall₂ V xs ys)
    (hx : ∀ x ∈ xs, ∀ y, V x y → EndAlike (fun r => Excused (.refusal r)) V
      (x.descend settings.maxDepth segment depth) (y.descend settings'.maxDepth segment depth')) :
    EndAlike (fun r => Excused (.refusal r)) (List.Forall₂ V)
      (Value.descendItems settings.maxDepth segment depth xs)
      (Value.descendItems settings'.maxDepth segment depth' ys) := by
  induction h with
  | nil => exact .result .nil
  | cons hxy _ ih =>
    rw [List.forall_mem_cons] at hx
    rw [Value.descendItems, Value.descendItems]
    refine (hx.1 _ hxy).bind fun a b hab => (ih hx.2).bind fun as bs habs => ?_
    exact .result (List.rel_append (hV.spread hab) habs)

theorem descend_alike (hV : Unseen V) (hd : Headroom Excused settings settings' depth depth')
    (h : V v w) :
    EndAlike (fun r => Excused (.refusal r)) V (v.descend settings.maxDepth segment depth)
      (w.descend settings'.maxDepth segment depth') := by
  induction v using Value.sequence_induction generalizing w depth depth' with
  | leaf v hv =>
    by_cases hle : (depth : Int) ≤ settings.maxDepth
    · rw [Value.descend_of_leaf hv hle, Value.descend_of_leaf (hV.items?_eq_none h hv) (hd.le hle)]
      apply EndAlike.result
      rcases Value.mapping_or_primitive hv with ⟨es, rfl⟩ | hprim
      · obtain ⟨fs, rfl, hget⟩ := hV.fields h
        exact hget (.text segment)
      · have hm := (Value.isObject_eq_false_iff.1 hprim).1
        rw [Value.field_of_not_mapping hm, Value.field_of_not_mapping (hV.isMapping_eq_false h hprim)]
        exact hV.undefined
    · exact descend_alike_of_lt hd (by omega)
  | sequence v xs hv ih =>
    obtain ⟨ys, hw, hxy⟩ := hV.items h hv
    by_cases hle : (depth : Int) ≤ settings.maxDepth
    · rw [Value.descend_of_items? hv hle, Value.descend_of_items? hw (hd.le hle)]
      have hsucc : Headroom Excused settings settings' (depth + 1 : Nat) (depth' + 1 : Nat) := hd.succ
      exact (descendItems_alike hV hxy fun x hx y hxy => ih x hx hsucc hxy).map fun _ _ => hV.list
    · exact descend_alike_of_lt hd (by omega)

theorem follow_alike (hV : Unseen V) (hd : Headroom Excused settings settings' 0 0)
    {path : List Text} (h : V v w) :
    EndAlike (fun r => Excused (.refusal r)) V (v.follow settings.maxDepth path)
      (w.follow settings'.maxDepth path) := by
  unfold Value.follow
  induction path generalizing v w with
  | nil => exact .result h
  | cons segment path ih =>
    rw [List.foldlM_cons, List.foldlM_cons]
    have h0 : Headroom Excused settings settings' (0 : Nat) (0 : Nat) := hd
    exact (descend_alike hV h0 h).bind fun x y hxy => ih hxy

end Following

section Evaluating
variable {Excused : Fault → Prop} {V : Value → Value → Prop} {settings settings' : Settings}
  {record record' criteria : Value}

theorem evaluate_alike (hV : Unseen V) (hd : Headroom Excused settings settings' 0 0)
    (h : V record record') (c : Criterion) :
    EndAlike Excused (fun x y => V x.1 y.1 ∧ x.2 = y.2) (evaluate settings record c)
      (evaluate settings' record' c) := by
  unfold evaluate
  apply (EndAlike.mapError (follow_alike hV hd h)).bind
  intro x y hxy
  apply (holds_alike hV hd hxy).bind
  rintro a _ rfl
  exact .result ⟨hxy, rfl⟩

/-- The whole run is the same, with what it logs, unless it ends with an excused fault. -/
theorem eligibleFrom_alike (hV : Unseen V) (hd : Headroom Excused settings settings' 0 0)
    (h : V record record') (cs : List Criterion) :
    (∃ f, (eligibleFrom settings record cs).outcome = .error f ∧ Excused f) ∨
      eligibleFrom settings record cs = eligibleFrom settings' record' cs := by
  induction cs with
  | nil => exact .inr rfl
  | cons c cs ih =>
    have he := evaluate_alike hV hd h c
    rw [eligibleFrom, eligibleFrom]
    generalize evaluate settings record c = x at he ⊢
    generalize evaluate settings' record' c = y at he ⊢
    cases he with
    | excused hf => exact .inl ⟨_, rfl, hf⟩
    | fault => exact .inr rfl
    | @result x y hxy =>
      obtain ⟨found, b⟩ := x
      obtain ⟨found', b'⟩ := y
      obtain ⟨-, rfl⟩ := hxy
      cases b with
      | false => exact .inr rfl
      | true =>
        -- both go on, so they end as the rest does
        rcases ih with ⟨f, hf, he⟩ | heq
        · exact .inl ⟨f, hf, he⟩
        · exact .inr (congrArg (Run.after _) heq)

theorem isEligible_alike (hV : Unseen V) (hd : Headroom Excused settings settings' 0 0)
    (h : V record record') (hk : record.kind = record'.kind) :
    (∃ f, (isEligible settings record criteria).outcome = .error f ∧ Excused f) ∨
      isEligible settings record criteria = isEligible settings' record' criteria := by
  rw [isEligible, isEligible, ← checkedCriteria_congr hk]
  cases checkedCriteria record criteria with
  | error f => exact .inr rfl
  | ok cs => exact eligibleFrom_alike hV hd h cs

end Evaluating

end Criteria
