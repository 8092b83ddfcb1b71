import Criteria.Value
import Mathlib.Data.List.Basic

namespace Criteria.Value

theorem isSequence_eq_false_iff {v : Value} : v.isSequence = false ↔ v.items? = none := by
  cases v <;> simp [isSequence, kind, items?]

theorem isObject_eq_false_iff {v : Value} :
    v.isObject = false ↔ v.isMapping = false ∧ v.items? = none := by
  rw [isObject, Bool.or_eq_false_iff, isSequence_eq_false_iff]

theorem isMapping_iff {v : Value} : v.isMapping = true ↔ ∃ entries, v = mapping entries := by
  cases v <;> simp [isMapping, kind]

theorem mapping_or_primitive {v : Value} (h : v.items? = none) :
    (∃ entries, v = mapping entries) ∨ v.isObject = false := by
  cases v <;> first | exact .inl ⟨_, rfl⟩ | exact .inr rfl | exact nomatch h

theorem isSequence_of_items? {v : Value} {items : List Value} (h : v.items? = some items) :
    v.isSequence = true := by
  cases v <;> first | rfl | exact nomatch h

theorem isMapping_of_items? {v : Value} {items : List Value} (h : v.items? = some items) :
    v.isMapping = false := by
  cases v <;> first | rfl | exact nomatch h

theorem isObject_of_items? {v : Value} {items : List Value} (h : v.items? = some items) :
    v.isObject = true := by
  rw [isObject, isSequence_of_items? h, Bool.or_true]

theorem eq_text_of_text? {v : Value} {s : Text} (h : v.text? = some s) : v = text s := by
  cases v with
  | text t => exact congrArg text (Option.some.inj h)
  | _ => exact nomatch h

theorem sizeOf_lt_of_mem_items {v x : Value} {items : List Value} (h : v.items? = some items)
    (hx : x ∈ items) : sizeOf x < sizeOf v := by
  have hs := List.sizeOf_lt_of_mem hx
  cases v <;> simp_all [items?] <;> omega

theorem sizeOf_lt_of_mem_entries {e : Value × Value} {entries : List (Value × Value)}
    (he : e ∈ entries) :
    sizeOf e.1 < sizeOf (mapping entries) ∧ sizeOf e.2 < sizeOf (mapping entries) := by
  have hs := List.sizeOf_lt_of_mem he
  obtain ⟨key, x⟩ := e
  simp only [Prod.mk.sizeOf_spec, mapping.sizeOf_spec] at hs ⊢
  omega

/-- Induction over the items of sequences and the keys and values of mappings. -/
@[elab_as_elim]
theorem nested_induction {P : Value → Prop} (primitive : ∀ v, v.isObject = false → P v)
    (sequence : ∀ v items, v.items? = some items → (∀ x ∈ items, P x) → P v)
    (mapping : ∀ entries, (∀ e ∈ entries, P e.1 ∧ P e.2) → P (.mapping entries)) (v : Value) :
    P v := by
  cases h : v.items? with
  | some items =>
    exact sequence v items h fun x hx =>
      have := sizeOf_lt_of_mem_items h hx
      nested_induction primitive sequence mapping x
  | none =>
    rcases mapping_or_primitive h with ⟨entries, rfl⟩ | hv
    · exact mapping entries fun e he =>
        have := sizeOf_lt_of_mem_entries he
        ⟨nested_induction primitive sequence mapping e.1,
          nested_induction primitive sequence mapping e.2⟩
    · exact primitive v hv
termination_by sizeOf v

@[elab_as_elim]
theorem sequence_induction {P : Value → Prop} (leaf : ∀ v, v.items? = none → P v)
    (sequence : ∀ v items, v.items? = some items → (∀ x ∈ items, P x) → P v) (v : Value) :
    P v := by
  induction v using nested_induction with
  | primitive v hv => exact leaf v (isObject_eq_false_iff.1 hv).2
  | sequence v items hv ih => exact sequence v items hv ih
  | mapping entries _ => exact leaf (mapping entries) rfl

@[elab_as_elim]
theorem mapping_induction {P : Value → Prop}
    (step : ∀ v, (∀ entries, v = mapping entries → ∀ e ∈ entries, P e.2) → P v) (v : Value) : P v := by
  induction v using nested_induction with
  | primitive v hv =>
    apply step
    rintro entries rfl
    exact nomatch hv
  | sequence v items hv _ =>
    apply step
    rintro entries rfl
    exact nomatch hv
  | mapping entries ih =>
    apply step
    intro entries' h e he
    cases h
    exact (ih e he).2

@[simp] theorem allLeaves_eq (items : List Value) : allLeaves items = items.flatMap leaves := by
  induction items with
  | nil => rfl
  | cons x xs ih => rw [allLeaves, ih, List.flatMap_cons]

theorem leaves_of_items? {v : Value} {items : List Value} (h : v.items? = some items) :
    v.leaves = items.flatMap leaves := by
  rw [← allLeaves_eq]
  cases v <;> simp_all [items?, leaves]

@[simp] theorem leaves_of_leaf {v : Value} (h : v.items? = none) : v.leaves = [v] := by
  cases v <;> simp_all [items?, leaves]

theorem items?_of_mem_leaves {v l : Value} (h : l ∈ v.leaves) : l.items? = none := by
  induction v using sequence_induction with
  | leaf v hv =>
    rw [leaves_of_leaf hv, List.mem_singleton] at h
    rw [h, hv]
  | sequence v items hv ih =>
    rw [leaves_of_items? hv] at h
    obtain ⟨x, hx, hl⟩ := List.mem_flatMap.1 h
    exact ih x hx hl

@[simp] theorem leaves_flatMap_leaves (v : Value) : v.leaves.flatMap leaves = v.leaves := by
  have h : v.leaves.flatMap leaves = v.leaves.flatMap fun l => [l] :=
    List.flatMap_congr fun l hl => leaves_of_leaf (items?_of_mem_leaves hl)
  rw [h, List.flatMap_singleton']

end Criteria.Value
