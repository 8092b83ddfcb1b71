import Criteria.Explanation
import Criteria.Proofs.Path

namespace Criteria

mutual

def Value.numbers : Value → List Number
  | .number n => [n]
  | .list items => Value.allNumbers items
  | .tuple items => Value.allNumbers items
  | .mapping entries => Value.entryNumbers entries
  | _ => []

def Value.allNumbers : List Value → List Number
  | [] => []
  | v :: vs => v.numbers ++ Value.allNumbers vs

def Value.entryNumbers : List (Value × Value) → List Number
  | [] => []
  | (k, v) :: es => k.numbers ++ v.numbers ++ Value.entryNumbers es

end

namespace Value
variable {v x : Value} {items : List Value} {entries : List (Value × Value)}

theorem numbers_of_items? (h : v.items? = some items) : v.numbers = items.flatMap numbers := by
  have hall : ∀ xs, allNumbers xs = xs.flatMap numbers := by
    intro xs
    induction xs with
    | nil => rfl
    | cons x xs ih => rw [allNumbers, ih, List.flatMap_cons]
  rw [← hall]
  cases v <;> simp_all [items?, numbers]

@[simp] theorem numbers_mapping (entries : List (Value × Value)) :
    (mapping entries).numbers = entries.flatMap fun e => e.1.numbers ++ e.2.numbers := by
  rw [numbers]
  induction entries with
  | nil => rfl
  | cons e es ih => rw [entryNumbers, ih, List.flatMap_cons]

theorem numbers_subset_of_mem_items (h : v.items? = some items) (hx : x ∈ items) :
    x.numbers ⊆ v.numbers := by
  rw [numbers_of_items? h]
  exact fun n hn => List.mem_flatMap.2 ⟨x, hx, hn⟩

theorem numbers_subset_of_mem_entries {e : Value × Value} (he : e ∈ entries) :
    e.1.numbers ⊆ (mapping entries).numbers ∧ e.2.numbers ⊆ (mapping entries).numbers := by
  rw [numbers_mapping]
  exact List.append_subset.1 fun n hn => List.mem_flatMap.2 ⟨e, he, hn⟩

theorem numbers_subset_of_mem_leaves (h : x ∈ v.leaves) : x.numbers ⊆ v.numbers := by
  induction v using sequence_induction with
  | leaf v hv =>
    rw [leaves_of_leaf hv, List.mem_singleton] at h
    rw [h]
    exact List.Subset.refl _
  | sequence v items hv ih =>
    rw [leaves_of_items? hv] at h
    obtain ⟨y, hy, hx⟩ := List.mem_flatMap.1 h
    exact List.Subset.trans (ih y hy hx) (numbers_subset_of_mem_items hv hy)

theorem numbers_get_subset (entries : List (Value × Value)) (key : Value) :
    (Entries.get entries key).numbers ⊆ (mapping entries).numbers := by
  rw [Entries.get, Entries.get?]
  cases hf : entries.find? fun e => e.1.sameKey key with
  | none => exact List.nil_subset _
  | some e => exact (numbers_subset_of_mem_entries (List.mem_of_find?_eq_some hf)).2

theorem numbers_field_subset (v : Value) (segment : Text) : (v.field segment).numbers ⊆ v.numbers := by
  cases v with
  | mapping entries => exact numbers_get_subset entries (.text segment)
  | _ => exact List.nil_subset _

theorem numbers_branch_subset (v : Value) (segment : Text) : (v.branch segment).numbers ⊆ v.numbers := by
  cases h : v.items? with
  | none =>
    rw [branch_of_leaf h]
    exact numbers_field_subset v segment
  | some items =>
    rw [branch_of_items? h, numbers_of_items? rfl]
    intro n hn
    obtain ⟨x, hx, hn⟩ := List.mem_flatMap.1 hn
    obtain ⟨l, hl, hx⟩ := List.mem_flatMap.1 hx
    -- what a leaf contributes is its field, or the items of its field
    have hspread : x.numbers ⊆ (l.field segment).numbers := by
      cases hi : (l.field segment).items? with
      | none =>
        rw [spread, hi, Option.getD_none, List.mem_singleton] at hx
        rw [hx]
        exact List.Subset.refl _
      | some items =>
        rw [spread, hi, Option.getD_some] at hx
        exact numbers_subset_of_mem_items hi hx
    exact numbers_subset_of_mem_leaves hl (numbers_field_subset l segment (hspread hn))

theorem numbers_along_subset (v : Value) (path : List Text) : (v.along path).numbers ⊆ v.numbers := by
  induction path generalizing v with
  | nil => exact List.Subset.refl _
  | cons segment path ih => exact List.Subset.trans (ih (v.branch segment)) (numbers_branch_subset v segment)

theorem rendered_of_items? (h : v.items? = some items) : v.rendered = list (items.map rendered) := by
  have hall : ∀ xs, allRendered xs = xs.map rendered := by
    intro xs
    induction xs with
    | nil => rfl
    | cons x xs ih => rw [allRendered, ih, List.map_cons]
  rw [← hall]
  cases v <;> simp_all [items?, rendered]

@[simp] theorem numbers_rendered (v : Value) : v.rendered.numbers = v.numbers := by
  induction v using sequence_induction with
  | leaf v hv => cases v <;> first | rfl | exact nomatch hv
  | sequence v items hv ih =>
    rw [rendered_of_items? hv, numbers_of_items? rfl, numbers_of_items? hv, List.flatMap_map]
    exact List.flatMap_congr ih

end Value
end Criteria
