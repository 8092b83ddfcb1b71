import Criteria.Proofs.Leaves
import Mathlib.Data.List.Perm.Basic

namespace Criteria

/-- Two trees with scalars that are the same, items that are the same one by one, and mappings whose entries can be
paired off key by key. -/
inductive SameTree (same : Value → Value → Prop) : Value → Value → Prop where
  | scalar {v w : Value} : v.isObject = false → w.isObject = false → same v w → SameTree same v w
  | list (rows : List (Value × Value)) : (∀ r ∈ rows, SameTree same r.1 r.2) →
    SameTree same (.list (rows.map Prod.fst)) (.list (rows.map Prod.snd))
  | mapping {es fs : List (Value × Value)} (rows : List (Value × Value × Value)) :
    es.Perm (rows.map fun r => (r.1, r.2.1)) → fs.Perm (rows.map fun r => (r.1, r.2.2)) →
    (∀ r ∈ rows, SameTree same r.2.1 r.2.2) → SameTree same (.mapping es) (.mapping fs)

namespace SameTree
variable {same : Value → Value → Prop} {u v w : Value}

section
variable {α β γ : Type} {f : α → γ} {g : β → γ} {xs : List α} {ys : List β}

theorem exists_perm_map (h : (xs.map f).Perm (ys.map g)) : ∃ zs, List.Perm zs ys ∧ xs.map f = zs.map g := by
  have hys : List.Forall₂ (fun c y => c = g y) (ys.map g) ys :=
    List.forall₂_map_left_iff.2 (List.forall₂_same.2 fun _ _ => rfl)
  obtain ⟨zs, hzs, hperm⟩ := List.perm_comp_forall₂ h hys
  refine ⟨zs, hperm, ?_⟩
  rw [← List.forall₂_eq_eq_eq, List.forall₂_map_right_iff]
  exact hzs

theorem exists_pairs (h : xs.map f = ys.map g) :
    ∃ zs : List (α × β), zs.map Prod.fst = xs ∧ zs.map Prod.snd = ys ∧ ∀ z ∈ zs, f z.1 = g z.2 := by
  induction xs generalizing ys with
  | nil =>
    cases ys with
    | nil => exact ⟨[], rfl, rfl, fun _ hz => nomatch hz⟩
    | cons y ys => exact nomatch h
  | cons x xs ih =>
    cases ys with
    | nil => exact nomatch h
    | cons y ys =>
      obtain ⟨hxy, hrest⟩ := List.cons.inj h
      obtain ⟨zs, hxs, hys, hzs⟩ := ih hrest
      exact ⟨(x, y) :: zs, by rw [← hxs]; rfl, by rw [← hys]; rfl, List.forall_mem_cons.2 ⟨hxy, hzs⟩⟩

end

theorem list_map {α : Type} {f g : α → Value} {xs : List α} (h : ∀ x ∈ xs, SameTree same (f x) (g x)) :
    SameTree same (.list (xs.map f)) (.list (xs.map g)) := by
  have hlist := SameTree.list (xs.map fun x => (f x, g x)) (List.forall_mem_map.2 h)
  rw [List.map_map, List.map_map] at hlist
  exact hlist

theorem mapping_map {α : Type} {k f g : α → Value} {xs : List α} {es fs : List (Value × Value)}
    (hes : es.Perm (xs.map fun x => (k x, f x))) (hfs : fs.Perm (xs.map fun x => (k x, g x)))
    (h : ∀ x ∈ xs, SameTree same (f x) (g x)) : SameTree same (.mapping es) (.mapping fs) := by
  refine .mapping (xs.map fun x => (k x, f x, g x)) ?_ ?_ (List.forall_mem_map.2 h)
  · rw [List.map_map]
    exact hes
  · rw [List.map_map]
    exact hfs

/-- Two trees that are the same as a third are the same. -/
theorem of_common (hs : ∀ {u v w}, same v u → same w u → same v w) (h : SameTree same v u)
    (h' : SameTree same w u) : SameTree same v w := by
  induction h generalizing w with
  | scalar hv hu hvu =>
    cases h' with
    | scalar hw _ hwu => exact .scalar hv hw (hs hvu hwu)
    | list rows => exact nomatch hu
    | mapping rows => exact nomatch hu
  | list rows hrows ih =>
    generalize hu : Value.list (rows.map Prod.snd) = u at h'
    cases h' with
    | scalar _ hu' => exact absurd (hu ▸ hu') Bool.noConfusion
    | list rows' hrows' =>
      obtain ⟨zs, hl, hr, hzs⟩ := exists_pairs (Value.list.inj hu)
      rw [← hl, ← hr, List.map_map, List.map_map]
      refine list_map fun z hz => ?_
      have hleft : z.1 ∈ rows := hl ▸ List.mem_map_of_mem hz
      have hright : z.2 ∈ rows' := hr ▸ List.mem_map_of_mem hz
      exact ih z.1 hleft (hzs z hz ▸ hrows' z.2 hright)
    | mapping rows' => exact nomatch hu
  | @mapping es fs rows hes hfs hrows ih =>
    generalize hu : Value.mapping fs = u at h'
    cases h' with
    | scalar _ hu' => exact absurd (hu ▸ hu') Bool.noConfusion
    | list rows' => exact nomatch hu
    | @mapping gs _ rows' hgs hfs' hrows' =>
      cases hu
      -- the rows of the second are put in the order of the first, by what both pair with the third tree
      obtain ⟨rows'', hperm, heq⟩ := exists_perm_map (hfs.symm.trans hfs')
      obtain ⟨zs, hl, hr, hzs⟩ := exists_pairs heq
      have hes' : es.Perm (zs.map fun z => (z.1.1, z.1.2.1)) := by
        rw [← hl, List.map_map] at hes
        exact hes
      have hgs' : gs.Perm (zs.map fun z => (z.1.1, z.2.2.1)) := by
        refine (hgs.trans (hperm.map _).symm).trans (.of_eq ?_)
        rw [← hr, List.map_map]
        exact List.map_congr_left fun z hz => Prod.ext (Prod.mk.inj (hzs z hz)).1.symm rfl
      refine mapping_map hes' hgs' fun z hz => ?_
      have hleft : z.1 ∈ rows := hl ▸ List.mem_map_of_mem hz
      have hright : z.2 ∈ rows' := hperm.subset (hr ▸ List.mem_map_of_mem hz)
      exact ih z.1 hleft ((Prod.mk.inj (hzs z hz)).2 ▸ hrows' z.2 hright)

theorem exists_entry {es fs : List (Value × Value)} (h : SameTree same (.mapping es) (.mapping fs)) {f : Value × Value}
    (hf : f ∈ fs) : ∃ e ∈ es, e.1 = f.1 ∧ SameTree same e.2 f.2 := by
  cases h with
  | scalar hv => exact Bool.noConfusion hv
  | mapping rows hes hfs hrows =>
    obtain ⟨r, hr, rfl⟩ := List.mem_map.1 (hfs.subset hf)
    exact ⟨(r.1, r.2.1), hes.symm.subset (List.mem_map.2 ⟨r, hr, rfl⟩), rfl, hrows r hr⟩

theorem eq_mapping {es : List (Value × Value)} (h : SameTree same (.mapping es) w) : ∃ fs, w = .mapping fs := by
  cases h with
  | scalar hv => exact Bool.noConfusion hv
  | @mapping _ fs => exact ⟨fs, rfl⟩

end SameTree
end Criteria
