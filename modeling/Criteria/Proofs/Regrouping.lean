import Criteria.Proofs.Eligibility
import Criteria.Proofs.Keys
import Mathlib.Logic.Relation

namespace Criteria

mutual

/-- Every leaf of the first value lies below a leaf of the second. -/
inductive Below : Value → Value → Prop where
  | leaves {v w : Value} : EachBelowSome v.leaves w.leaves → Below v w

inductive EachBelowSome : List Value → List Value → Prop where
  | nil {ms : List Value} : EachBelowSome [] ms
  | cons {l m : Value} {ls ms : List Value} :
    m ∈ ms → LeafBelow l m → EachBelowSome ls ms → EachBelowSome (l :: ls) ms

/-- A primitive lies below itself, and a mapping below one with the same keys whose values lie above its own. -/
inductive LeafBelow : Value → Value → Prop where
  | primitive {l : Value} : l.isObject = false → LeafBelow l l
  | mapping {es fs : List (Value × Value)} :
    (∀ key, (Entries.get? es key).isSome = (Entries.get? fs key).isSome) →
    (∀ key v w, Entries.get? es key = some v → Entries.get? fs key = some w → Below v w) →
      LeafBelow (.mapping es) (.mapping fs)

end

variable {settings : Settings} {v w l m c : Value} {segment : Text}

theorem eachBelowSome_iff {ls ms : List Value} :
    EachBelowSome ls ms ↔ ∀ l ∈ ls, ∃ m ∈ ms, LeafBelow l m := by
  induction ls with
  | nil => exact iff_of_true .nil (by simp)
  | cons l ls ih =>
    rw [List.forall_mem_cons, ← ih]
    constructor
    · intro h
      cases h with
      | cons hm hlm hls => exact ⟨⟨_, hm, hlm⟩, hls⟩
    · intro ⟨⟨m, hm, hlm⟩, hls⟩
      exact .cons hm hlm hls

theorem below_iff : Below v w ↔ ∀ l ∈ v.leaves, ∃ m ∈ w.leaves, LeafBelow l m := by
  rw [← eachBelowSome_iff]
  constructor
  · intro ⟨h⟩
    exact h
  · exact .leaves

theorem LeafBelow.toBelow (h : LeafBelow l m) : Below l m := by
  rw [below_iff]
  cases h with
  | primitive hl =>
    have hleaf := Value.leaves_of_leaf (Value.isObject_eq_false_iff.1 hl).2
    simpa [hleaf] using LeafBelow.primitive hl
  | @mapping es fs hkeys hvalues =>
    simpa [Value.leaves] using LeafBelow.mapping hkeys hvalues

theorem LeafBelow.get {es fs : List (Value × Value)} (h : LeafBelow (.mapping es) (.mapping fs))
    (key : Value) : Below (Entries.get es key) (Entries.get fs key) := by
  cases h with
  | primitive hl => exact nomatch hl
  | mapping hkeys hvalues =>
    have hk := hkeys key
    have hv := hvalues key
    unfold Entries.get
    cases he : Entries.get? es key with
    | none =>
      rw [he] at hk
      rw [Option.isSome_eq_false_iff.1 hk.symm |> Option.isNone_iff_eq_none.1]
      exact (LeafBelow.primitive rfl).toBelow
    | some x =>
      rw [he] at hk
      obtain ⟨y, hf⟩ := Option.isSome_iff_exists.1 hk.symm
      rw [hf]
      exact hv x y he hf

theorem LeafBelow.field (h : LeafBelow l m) (segment : Text) :
    Below (l.field segment) (m.field segment) := by
  cases h with
  | primitive hl =>
    rw [Value.field_of_not_mapping (Value.isObject_eq_false_iff.1 hl).1]
    exact (LeafBelow.primitive rfl).toBelow
  | mapping hkeys hvalues => exact (LeafBelow.mapping hkeys hvalues).get (.text segment)

theorem Below.branch (h : Below v w) (segment : Text) :
    Below (v.branch segment) (w.branch segment) := by
  rw [below_iff] at h ⊢
  simp only [Value.leaves_branch, List.mem_flatMap]
  intro a ⟨l, hl, ha⟩
  obtain ⟨m, hm, hlm⟩ := h l hl
  obtain ⟨b, hb, hab⟩ := below_iff.1 (hlm.field segment) a ha
  exact ⟨b, ⟨m, hm, hb⟩, hab⟩

theorem Below.along (h : Below v w) (path : List Text) : Below (v.along path) (w.along path) := by
  induction path generalizing v w with
  | nil => exact h
  | cons segment path ih => exact ih (h.branch segment)

/-- What is satisfied below is satisfied above. -/
theorem Satisfies.of_below (hs : Satisfies settings v c) (h : Below v w) : Satisfies settings w c := by
  induction c using Value.nested_induction generalizing v w with
  | primitive c hprim =>
    obtain ⟨l, hl, hs⟩ := satisfies_iff_leaf.1 hs
    obtain ⟨m, hm, hlm⟩ := below_iff.1 h l hl
    refine satisfies_iff_leaf.2 ⟨m, hm, ?_⟩
    cases hlm with
    | primitive => exact hs
    | mapping =>
      -- a mapping satisfies no primitive
      obtain ⟨hmap, hleaf⟩ := Value.isObject_eq_false_iff.1 hprim
      exact nomatch ((leafSatisfies_primitive hmap).1 ((satisfies_leaf rfl hleaf).1 hs)).1
  | sequence c items hi ih =>
    obtain ⟨a, ha, hs⟩ := (satisfies_iff_item hi).1 hs
    exact (satisfies_iff_item hi).2 ⟨a, ha, ih a ha hs h⟩
  | mapping entries ih =>
    obtain ⟨l, hl, hs⟩ := satisfies_iff_leaf.1 hs
    obtain ⟨m, hm, hlm⟩ := below_iff.1 h l hl
    refine satisfies_iff_leaf.2 ⟨m, hm, ?_⟩
    cases hlm with
    | primitive => exact hs
    | mapping hkeys hvalues =>
      have hfields := leafSatisfies_mapping.1 ((satisfies_leaf rfl rfl).1 hs)
      refine (satisfies_leaf rfl rfl).2 (leafSatisfies_mapping.2 fun e he => ?_)
      exact (ih e he).2 (hfields e he) ((LeafBelow.mapping hkeys hvalues).get e.1)

/-- One change to how the items of a record are grouped, at any place. -/
inductive Regroups : Value → Value → Prop where
  | reorder {xs ys : List Value} : xs.Perm ys → Regroups (.list xs) (.list ys)
  | duplicate {x : Value} {xs : List Value} : x ∈ xs → Regroups (.list xs) (.list (x :: xs))
  | group {xs ys zs : List Value} : Regroups (.list (xs ++ ys ++ zs)) (.list (xs ++ .list ys :: zs))
  | wrap {v : Value} : Regroups v (.list [v])
  | tuple {xs : List Value} : Regroups (.list xs) (.tuple xs)
  | item {v w : Value} {before after : List Value} : Regroups v w →
      Regroups (.list (before ++ v :: after)) (.list (before ++ w :: after))
  | field {key v w : Value} {before after : List (Value × Value)} : Regroups v w →
      Regroups (.mapping (before ++ (key, v) :: after)) (.mapping (before ++ (key, w) :: after))

theorem leafBelow_refl_of_mem (v : Value) : ∀ l ∈ v.leaves, LeafBelow l l := by
  induction v using Value.nested_induction with
  | primitive v hv =>
    rw [Value.leaves_of_leaf (Value.isObject_eq_false_iff.1 hv).2, List.forall_mem_singleton]
    exact .primitive hv
  | sequence v items hv ih =>
    intro l hl
    rw [Value.leaves_of_items? hv] at hl
    obtain ⟨x, hx, hl⟩ := List.mem_flatMap.1 hl
    exact ih x hx l hl
  | mapping entries ih =>
    rw [Value.leaves_of_leaf rfl, List.forall_mem_singleton]
    refine .mapping (fun key => rfl) fun key x y hx hy => ?_
    rw [hx] at hy
    cases hy
    obtain ⟨e, he, rfl⟩ := Entries.exists_mem_of_get?_eq_some hx
    exact below_iff.2 fun l hl => ⟨l, hl, (ih e he).2 l hl⟩

theorem below_of_leaves_subset (h : v.leaves ⊆ w.leaves) : Below v w :=
  below_iff.2 fun l hl => ⟨l, h hl, leafBelow_refl_of_mem v l hl⟩

theorem Below.refl (v : Value) : Below v v := below_of_leaves_subset (List.Subset.refl _)

theorem below_both_of_same_leaves (h : ∀ l, l ∈ v.leaves ↔ l ∈ w.leaves) : Below v w ∧ Below w v :=
  ⟨below_of_leaves_subset fun l => (h l).1, below_of_leaves_subset fun l => (h l).2⟩

theorem Below.item (h : Below v w) {before after : List Value} :
    Below (.list (before ++ v :: after)) (.list (before ++ w :: after)) := by
  rw [below_iff] at h ⊢
  have hleaves (x : Value) : (Value.list (before ++ x :: after)).leaves =
      (Value.list before).leaves ++ (x.leaves ++ (Value.list after).leaves) := by
    simp [Value.leaves]
  simp only [hleaves, List.mem_append]
  rintro l (hl | hl | hl)
  · exact ⟨l, .inl hl, leafBelow_refl_of_mem (.list before) l hl⟩
  · obtain ⟨m, hm, hlm⟩ := h l hl
    exact ⟨m, .inr (.inl hm), hlm⟩
  · exact ⟨l, .inr (.inr hl), leafBelow_refl_of_mem (.list after) l hl⟩

theorem LeafBelow.changeField (h : Below v w) {key : Value} {before after : List (Value × Value)} :
    LeafBelow (.mapping (before ++ (key, v) :: after)) (.mapping (before ++ (key, w) :: after)) := by
  have hget := Entries.get?_replace before after key v w
  refine .mapping (fun k => ?_) fun k x y hx hy => ?_
  · rcases hget k with heq | ⟨hv, hw⟩
    · rw [heq]
    · rw [hv, hw]; rfl
  · rcases hget k with heq | ⟨hv, hw⟩
    · rw [heq, hy] at hx
      cases hx
      exact .refl x
    · rw [hv] at hx
      rw [hw] at hy
      cases hx
      cases hy
      exact h

/-- Regrouping takes no leaf away and adds none. -/
theorem Regroups.below_both (h : Regroups v w) : Below v w ∧ Below w v := by
  induction h with
  | reorder hp =>
    apply below_both_of_same_leaves
    simp [Value.leaves, hp.mem_iff]
  | @duplicate x xs hx =>
    apply below_both_of_same_leaves
    intro l
    simp only [Value.leaves, Value.allLeaves_eq, List.flatMap_cons, List.mem_append]
    exact ⟨.inr, fun h => h.elim (fun hl => List.mem_flatMap.2 ⟨x, hx, hl⟩) id⟩
  | group =>
    apply below_both_of_same_leaves
    simp [Value.leaves]
  | wrap =>
    apply below_both_of_same_leaves
    simp [Value.leaves]
  | tuple => exact below_both_of_same_leaves fun l => Iff.rfl
  | item _ ih => exact ⟨ih.1.item, ih.2.item⟩
  | field _ ih => exact ⟨(LeafBelow.changeField ih.1).toBelow, (LeafBelow.changeField ih.2).toBelow⟩

theorem satisfies_along_iff_of_regroups (h : Relation.EqvGen Regroups v w) (path : List Text) :
    Satisfies settings (v.along path) c ↔ Satisfies settings (w.along path) c := by
  induction h with
  | rel v w hstep =>
    obtain ⟨hvw, hwv⟩ := hstep.below_both
    exact ⟨fun hs => hs.of_below (hvw.along path), fun hs => hs.of_below (hwv.along path)⟩
  | refl v => rfl
  | symm v w _ ih => exact ih.symm
  | trans u v w _ _ ih ih' => exact ih.trans ih'

theorem LeafBelow.kind_eq (h : LeafBelow l m) : l.kind = m.kind := by
  cases h <;> rfl

theorem kind_eq_of_checkedCriteria {record record' criteria : Value} {cs cs' : List Criterion}
    (h : checkedCriteria record criteria = .ok cs) (h' : checkedCriteria record' criteria = .ok cs') :
    record.kind = record'.kind := by
  have hm := (checkedCriteria_eq_ok h).1
  have hm' := (checkedCriteria_eq_ok h').1
  rw [Value.isMapping, beq_iff_eq] at hm hm'
  rw [hm, hm']

/-- A true verdict on a record is not false on one that has the leaves of its sequences and more. And grouping
the items in a record in another way, as often and wherever one likes, turns no verdict into the other. -/
theorem isEligible_of_below (settings : Settings) (criteria : Value) :
    (∀ record record', LeafBelow record record' →
      (isEligible settings record criteria).outcome = .ok true →
      (isEligible settings record' criteria).outcome ≠ .ok false) ∧
    ∀ record record', Relation.EqvGen Regroups record record' → ∀ b b',
      (isEligible settings record criteria).outcome = .ok b →
      (isEligible settings record' criteria).outcome = .ok b' → b = b' := by
  constructor
  · intro record record' hbelow htrue hfalse
    obtain ⟨cs, hc, hiff⟩ := isEligible_iff_along htrue
    obtain ⟨cs', hc', hiff'⟩ := isEligible_iff_along hfalse
    rw [checkedCriteria_congr hbelow.kind_eq, hc'] at hc
    cases hc
    have hall := hiff.1 rfl
    exact Bool.noConfusion
      (hiff'.2 fun c hc => (hall c hc).of_below (hbelow.toBelow.along (segments c.1)))
  · intro record record' hregroups b b' hb hb'
    obtain ⟨cs, hc, hiff⟩ := isEligible_iff_along hb
    obtain ⟨cs', hc', hiff'⟩ := isEligible_iff_along hb'
    rw [checkedCriteria_congr (kind_eq_of_checkedCriteria hc hc'), hc'] at hc
    cases hc
    rw [Bool.eq_iff_iff, hiff, hiff']
    exact forall₂_congr fun c _ => satisfies_along_iff_of_regroups hregroups (segments c.1)

/-- One more item in the list of a field, with which an ordering is still met; and a number under a field that is
wrapped, while the list around the mapping is reordered and becomes a tuple. -/
theorem isEligible_of_below_nested_field :
    let item : Value → Value := fun v => .mapping [(.text "b", v)]
    let record : Value → Value := fun v => .mapping [(.text "a", v)]
    let criteria : Value := .mapping [(.text "a.b", .mapping [(.text "gte", .int 5)])]
    (LeafBelow (record (item (.list [.int 6]))) (record (item (.list [.int 1, .int 6]))) ∧
      (isEligible .default (record (item (.list [.int 6]))) criteria).outcome = .ok true ∧
      (isEligible .default (record (item (.list [.int 1, .int 6]))) criteria).outcome ≠ .ok false) ∧
    Relation.EqvGen Regroups (record (.list [item (.int 6), .null]))
      (record (.tuple [.null, item (.list [.int 6])])) ∧
    ∃ b b', (isEligible .default (record (.list [item (.int 6), .null])) criteria).outcome = .ok b ∧
      (isEligible .default (record (.tuple [.null, item (.list [.int 6])])) criteria).outcome = .ok b' ∧
      b = b' := by
  intro item record criteria
  obtain ⟨hgrow, hregroup⟩ := isEligible_of_below .default criteria
  have hfield {key v w : Value} (h : Below v w) : LeafBelow (.mapping [(key, v)]) (.mapping [(key, w)]) :=
    @LeafBelow.changeField v w h key [] []
  have hbelow : LeafBelow (record (item (.list [.int 6]))) (record (item (.list [.int 1, .int 6]))) :=
    hfield (hfield (below_of_leaves_subset (by simp [Value.leaves, Value.allLeaves]))).toBelow
  have htrue : (isEligible .default (record (item (.list [.int 6]))) criteria).outcome = .ok true := by
    decide +kernel
  have hplace {v w : Value} (h : Regroups v w) :
      Relation.EqvGen Regroups (record v) (record w) :=
    .rel _ _ (@Regroups.field (.text "a") v w [] [] h)
  have hwrap : Regroups (.list [item (.int 6), .null]) (.list [item (.list [.int 6]), .null]) :=
    @Regroups.item _ _ [] [.null] (@Regroups.field (.text "b") _ _ [] [] .wrap)
  have hregroups : Relation.EqvGen Regroups (record (.list [item (.int 6), .null]))
      (record (.tuple [.null, item (.list [.int 6])])) :=
    ((hplace hwrap).trans _ _ _ (hplace (.reorder (.swap ..)))).trans _ _ _ (hplace .tuple)
  have hflat : (isEligible .default (record (.list [item (.int 6), .null])) criteria).outcome =
      .ok true := by decide +kernel
  have hnested : (isEligible .default (record (.tuple [.null, item (.list [.int 6])])) criteria).outcome =
      .ok true := by decide +kernel
  exact ⟨⟨hbelow, htrue, hgrow _ _ hbelow htrue⟩, hregroups, true, true, hflat, hnested,
    hregroup _ _ hregroups true true hflat hnested⟩

end Criteria
