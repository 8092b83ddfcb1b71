import Criteria.Fingerprint
import Criteria.Proofs.JsonText
import Criteria.Proofs.Reading
import Criteria.Proofs.SameTree
import Mathlib.Data.List.Sort
import Mathlib.Data.String.Basic

namespace Criteria
open Json
variable {dates : Bool} {v w : Value}

section
variable {α β : Type}

@[simp] theorem textEntries?_ofTexts (ms : List (Text × α)) :
    textEntries? (ms.map fun m => (Value.text m.1, m.2)) = some ms := by
  induction ms with
  | nil => rfl
  | cons m ms ih =>
    unfold textEntries? at ih ⊢
    rw [List.map_cons, List.mapM_cons, ih]
    rfl

theorem sortTexts_perm (ms : List (Text × α)) : (sortTexts ms).Perm ms := List.mergeSort_perm _ _

theorem sortTexts_map (f : Text × α → β) (ms : List (Text × α)) :
    sortTexts (ms.map fun m => (m.1, f m)) = (sortTexts ms).map fun m => (m.1, f m) := by
  unfold sortTexts
  exact (List.map_mergeSort (f := fun m : Text × α => (m.1, f m)) (r := fun m n => (compare m.1 n.1).isLE)
    (s := fun m n => (compare m.1 n.1).isLE) fun _ _ _ _ => rfl).symm

theorem pairwise_sortTexts (ms : List (Text × α)) :
    (sortTexts ms).Pairwise fun m n => (compare m.1 n.1).isLE = true := by
  refine List.pairwise_mergeSort (fun _ _ _ => Std.TransCmp.isLE_trans) (fun m n => ?_) ms
  have hswap : compare n.1 m.1 = (compare m.1 n.1).swap := Std.OrientedCmp.eq_swap
  rw [hswap]
  cases compare m.1 n.1 <;> rfl

theorem sortTexts_eq_of_perm {ms ns : List (Text × α)} (hkeys : (ms.map Prod.fst).Nodup) (h : ms.Perm ns) :
    sortTexts ms = sortTexts ns := by
  have hperm : (sortTexts ms).Perm (sortTexts ns) := ((sortTexts_perm ms).trans h).trans (sortTexts_perm ns).symm
  refine hperm.eq_of_pairwise ?_ (pairwise_sortTexts ms) (pairwise_sortTexts ns)
  intro a b ha hb hab hba
  have ha' : a ∈ ms := (sortTexts_perm ms).subset ha
  have hb' : b ∈ ms := h.symm.subset ((sortTexts_perm ns).subset hb)
  have hname : a.1 = b.1 := Std.LawfulEqCmp.eq_of_compare (Std.OrientedCmp.isLE_antisymm hab hba)
  exact List.inj_on_of_nodup_map hkeys ha' hb' hname

end

def Value.tree (v : Value) : Json := v.canonical.toOption.getD .null

namespace Loaded

theorem canonicalItems_eq {items : List Value} (h : ∀ x ∈ items, x.canonical = .ok x.tree) :
    Value.canonicalItems items = .ok (items.map Value.tree) := by
  induction items with
  | nil => rfl
  | cons x xs ih =>
    rw [List.forall_mem_cons] at h
    rw [Value.canonicalItems, h.1, ih h.2]
    rfl

@[simp] theorem canonicalEntries_eq (ms : List (Text × Value)) :
    Value.canonicalEntries (Entries.ofTexts ms) = ms.map fun m => (.text m.1, m.2.canonical) := by
  induction ms with
  | nil => rfl
  | cons m ms ih => simp [Value.canonicalEntries, ih]

theorem membersOf_eq {ms : List (Text × Value)} (h : ∀ m ∈ ms, m.2.canonical = .ok m.2.tree) :
    membersOf (ms.map fun m => (.text m.1, m.2.canonical)) = .ok (ms.map fun m => (m.1, m.2.tree)) := by
  induction ms with
  | nil => rfl
  | cons m ms ih =>
    rw [List.forall_mem_cons] at h
    have hrest := ih h.2
    unfold membersOf at hrest ⊢
    rw [List.map_cons, List.mapM_cons, hrest, h.1]
    rfl

theorem canonical_mapping {ms : List (Text × Value)} (h : ∀ m ∈ ms, m.2.canonical = .ok m.2.tree) :
    (Value.mapping (Entries.ofTexts ms)).canonical =
      .ok (.object ((sortTexts ms).map fun m => (m.1, m.2.tree))) := by
  have hsorted : ∀ m ∈ sortTexts ms, m.2.canonical = .ok m.2.tree := fun m hm => h m ((sortTexts_perm ms).subset hm)
  have hentries : ms.map (fun m => (Value.text m.1, m.2.canonical)) =
      (ms.map fun m => (m.1, m.2.canonical)).map fun m => (Value.text m.1, m.2) := by
    rw [List.map_map]
    rfl
  rw [Value.canonical, canonicalEntries_eq, sortEntries, hentries, textEntries?_ofTexts]
  show Except.map _ (membersOf ((sortTexts (ms.map fun m => (m.1, m.2.canonical))).map _)) = _
  rw [sortTexts_map (fun m : Text × Value => m.2.canonical) ms, List.map_map]
  show Except.map _ (membersOf ((sortTexts ms).map fun m => (Value.text m.1, m.2.canonical))) = _
  rw [membersOf_eq hsorted]
  rfl

theorem canonical_eq (h : Loaded dates v) : v.canonical = .ok v.tree := by
  have htree {v : Value} {j : Json} (h : v.canonical = .ok j) : v.canonical = .ok v.tree := by
    rw [Value.tree, h]
    rfl
  induction h with
  | @int n hs =>
    refine htree (j := .int n) ?_
    show (integerText n).map _ = _
    rw [integerText_of_isShort hs]
    rfl
  | @list items _ ih =>
    refine htree (j := .array (items.map Value.tree)) ?_
    rw [Value.canonical, canonicalItems_eq ih]
    rfl
  | mapping _ _ _ _ ih => exact htree (canonical_mapping ih)
  | _ => rfl

theorem tree_mapping {ms : List (Text × Value)} (h : ∀ m ∈ ms, Loaded dates m.2) :
    (Value.mapping (Entries.ofTexts ms)).tree = .object ((sortTexts ms).map fun m => (m.1, m.2.tree)) := by
  rw [Value.tree, canonical_mapping fun m hm => (h m hm).canonical_eq]
  rfl

theorem tree_list {items : List Value} (h : ∀ x ∈ items, Loaded dates x) :
    (Value.list items).tree = .array (items.map Value.tree) := by
  rw [Value.tree, Value.canonical, canonicalItems_eq fun x hx => (h x hx).canonical_eq]
  rfl

theorem tree_int {n : ℤ} (h : IsShort n) : (Value.int n).tree = .int n := by
  show ((integerText n).map _).toOption.getD _ = _
  rw [integerText_of_isShort h]
  rfl

theorem integer_toDigits {n : ℤ} (h : IsShort n) :
    (integer (n < 0) (Nat.toDigits 10 n.natAbs) : Except (ReadFault Fault) Value) = .ok (.int n) := by
  have hvalue : (if decide (n < 0) = true then -(n.natAbs : ℤ) else n.natAbs) = n := by
    by_cases hn : n < 0
    · rw [if_pos (decide_eq_true hn)]
      omega
    · rw [if_neg (by simpa using hn)]
      omega
  have hlength : (Nat.toDigits 10 n.natAbs).length ≤ Numeral.digitLimit := h
  rw [integer, if_neg (Nat.not_lt.2 hlength), Nat.ofDigitChars_ten_toDigits]
  exact congrArg (fun k => Except.ok (Value.int k)) hvalue

theorem closing_eq_mapping {ms : List (Text × Value)} (h : dates = true → ∀ x, ms ≠ [(dateKey, x)]) :
    Document.closing dates (Entries.ofTexts ms) = .ok (.mapping (Entries.ofTexts ms)) := by
  cases dates with
  | false => rfl
  | true => exact (if_pos rfl).trans (unwrapDate_eq_mapping (h rfl))

theorem exists_denoteItems {items : List Value}
    (h : ∀ x ∈ items, ∃ u, x.tree.denote (Document.closing dates) = .ok u ∧ SameTree (· = ·) x u) :
    ∃ rows : List (Value × Value), rows.map Prod.fst = items ∧
      denoteItems (Document.closing dates) (items.map Value.tree) = .ok (rows.map Prod.snd) ∧
      ∀ r ∈ rows, SameTree (· = ·) r.1 r.2 := by
  induction items with
  | nil => exact ⟨[], rfl, rfl, fun _ hr => nomatch hr⟩
  | cons x xs ih =>
    rw [List.forall_mem_cons] at h
    obtain ⟨u, hu, hxu⟩ := h.1
    obtain ⟨rows, hfst, hsnd, hrows⟩ := ih h.2
    refine ⟨(x, u) :: rows, by rw [← hfst]; rfl, ?_, List.forall_mem_cons.2 ⟨hxu, hrows⟩⟩
    rw [List.map_cons, denoteItems, hu, hsnd]
    rfl

theorem exists_denoteMembers {ms : List (Text × Value)} (hjoined : ∀ m ∈ ms, IsJoined m.1)
    (h : ∀ m ∈ ms, ∃ u, m.2.tree.denote (Document.closing dates) = .ok u ∧ SameTree (· = ·) m.2 u) :
    ∃ rows : List (Text × Value × Value), rows.map (fun r => (r.1, r.2.1)) = ms ∧
      denoteMembers (Document.closing dates) (ms.map fun m => (m.1, m.2.tree)) =
        .ok (Entries.ofTexts (rows.map fun r => (r.1, r.2.2))) ∧
      ∀ r ∈ rows, SameTree (· = ·) r.2.1 r.2.2 := by
  induction ms with
  | nil => exact ⟨[], rfl, rfl, fun _ hr => nomatch hr⟩
  | cons m ms ih =>
    rw [List.forall_mem_cons] at h hjoined
    obtain ⟨u, hu, hmu⟩ := h.1
    obtain ⟨rows, hfst, hsnd, hrows⟩ := ih hjoined.2 h.2
    have hname : joinPairs m.1 = m.1 := hjoined.1
    refine ⟨(m.1, m.2, u) :: rows, by rw [← hfst]; rfl, ?_, List.forall_mem_cons.2 ⟨hmu, hrows⟩⟩
    rw [List.map_cons, denoteMembers, hu, hsnd, hname]
    rfl

theorem denote_moment {m : Moment} (h : ∀ o ∈ m.offset, o.IsReadable) :
    denote (Document.closing true) (.object [(dateKey, .string m.isoText)]) = .ok (.moment m) := by
  have hkey : joinPairs dateKey = dateKey := isJoined_ofChars _
  have htext : joinPairs m.isoText = m.isoText := isJoined_ofChars _
  rw [denote, denoteMembers, denote, hkey, htext, denoteMembers]
  have hpairs : Entries.ofPairs [(.text dateKey, .text m.isoText)] = Entries.ofTexts [(dateKey, .text m.isoText)] :=
    @Entries.ofPairs_of_nodup [(dateKey, .text m.isoText)] (List.nodup_singleton dateKey)
  simp only [bind, Except.bind, pure, Except.pure, hpairs]
  rw [Document.closing, if_pos rfl, unwrapDate_text, moment_isoText m h]
  rfl

/-- The members are read under the sorted names, and still do not look like a moment. -/
theorem exists_denote_mapping {ms : List (Text × Value)} (hkeys : (ms.map Prod.fst).Nodup)
    (hjoined : ∀ m ∈ ms, IsJoined m.1) (hm : ∀ m ∈ ms, Loaded dates m.2) (hw : dates = true → ∀ x, ms ≠ [(dateKey, x)])
    (h : ∀ m ∈ ms, ∃ u, m.2.tree.denote (Document.closing dates) = .ok u ∧ SameTree (· = ·) m.2 u) :
    ∃ u, (Value.mapping (Entries.ofTexts ms)).tree.denote (Document.closing dates) = .ok u ∧
      SameTree (· = ·) (.mapping (Entries.ofTexts ms)) u := by
  have hperm := sortTexts_perm ms
  obtain ⟨rows, hfst, hsnd, hrows⟩ := exists_denoteMembers (fun m hm => hjoined m (hperm.subset hm)) fun m hm =>
    h m (hperm.subset hm)
  have hnames : (rows.map fun r => (r.1, r.2.2)).map Prod.fst = (sortTexts ms).map Prod.fst := by
    rw [← hfst, List.map_map, List.map_map]
    rfl
  have hnodup : ((rows.map fun r => (r.1, r.2.2)).map Prod.fst).Nodup :=
    hnames ▸ (hperm.map Prod.fst).nodup_iff.2 hkeys
  have hwrapper (hd : dates = true) (x : Value) : (rows.map fun r => (r.1, r.2.2)) ≠ [(dateKey, x)] := by
    intro hone
    obtain ⟨r, rfl, hr⟩ := List.map_eq_singleton_iff.1 hone
    have hsingle : ms = [(r.1, r.2.1)] := List.perm_singleton.1 (hperm.symm.trans (.of_eq hfst.symm))
    exact hw hd r.2.1 (by rw [hsingle, (Prod.mk.inj hr).1])
  refine ⟨.mapping (Entries.ofTexts (rows.map fun r => (r.1, r.2.2))), ?_, ?_⟩
  · rw [tree_mapping hm, denote, hsnd]
    show (Document.closing dates (Entries.ofPairs (Entries.ofTexts _))).mapError ReadFault.rejected = _
    rw [Entries.ofPairs_of_nodup hnodup, closing_eq_mapping hwrapper]
    rfl
  · have hentries : (Entries.ofTexts ms).Perm (rows.map fun r => (.text r.1, r.2.1)) := by
      have hsorted := (hperm.map fun m => (Value.text m.1, m.2)).symm
      rw [← hfst, List.map_map] at hsorted
      exact hsorted
    refine SameTree.mapping_map hentries ?_ hrows
    rw [Entries.ofTexts, List.map_map]
    exact .refl _

/-- The reader makes of the tree of a loaded value the value, up to the order of entries. -/
theorem exists_denote (h : Loaded dates v) :
    ∃ u, v.tree.denote (Document.closing dates) = .ok u ∧ SameTree (· = ·) v u := by
  have hscalar {v : Value} (hv : v.isObject = false) (h : v.tree.denote (Document.closing dates) = .ok v) :
      ∃ u, v.tree.denote (Document.closing dates) = .ok u ∧ SameTree (· = ·) v u :=
    ⟨v, h, .scalar hv hv rfl⟩
  induction h with
  | null => exact hscalar rfl rfl
  | bool b => exact hscalar rfl rfl
  | @int n hs => exact hscalar rfl (by rw [tree_int hs, denote, integer_toDigits hs])
  | float x => exact hscalar rfl rfl
  | text hs => exact hscalar rfl (congrArg (fun t => Except.ok (Value.text t)) hs)
  | @moment m hd ho =>
    subst hd
    exact hscalar rfl (denote_moment ho)
  | list hx ih =>
    obtain ⟨rows, hfst, hsnd, hrows⟩ := exists_denoteItems ih
    refine ⟨.list (rows.map Prod.snd), ?_, hfst ▸ .list rows hrows⟩
    rw [tree_list hx, denote, hsnd]
    rfl
  | mapping hkeys hjoined hm hw ih => exact exists_denote_mapping hkeys hjoined hm hw ih

theorem tree_eq (hv : Loaded dates v) (h : SameTree (· = ·) v w) (hw : Loaded dates w) : v.tree = w.tree := by
  induction h with
  | scalar _ _ h => rw [h]
  | list rows hrows ih =>
    have hl : ∀ x ∈ rows.map Prod.fst, Loaded dates x := fun x => hv.of_mem_items rfl
    have hr : ∀ x ∈ rows.map Prod.snd, Loaded dates x := fun x => hw.of_mem_items rfl
    have htrees : ∀ r ∈ rows, r.1.tree = r.2.tree := fun r hrow =>
      ih r hrow (hl _ (List.mem_map_of_mem hrow)) (hr _ (List.mem_map_of_mem hrow))
    rw [tree_list hl, tree_list hr, List.map_map, List.map_map]
    exact congrArg Json.array (List.map_congr_left htrees)
  | @mapping es fs rows hes hfs hrows ih =>
    have htrees : ∀ r ∈ rows, r.2.1.tree = r.2.2.tree := by
      intro r hrow
      have hl : (r.1, r.2.1) ∈ es := hes.symm.subset (List.mem_map_of_mem hrow)
      have hr : (r.1, r.2.2) ∈ fs := hfs.symm.subset (List.mem_map.2 ⟨r, hrow, rfl⟩)
      have hloaded : Loaded dates (r.1, r.2.2).2 := of_mem_entries hw hr
      exact ih r hrow (of_mem_entries hv hl) hloaded
    obtain ⟨ms, rfl, hms, hmv⟩ := entries_eq_ofTexts hv
    obtain ⟨ns, rfl, hns, hnv⟩ := entries_eq_ofTexts hw
    -- both lists of entries have the same names with the same trees, in some order
    have hnamed (ms : List (Text × Value)) :
        ((Entries.ofTexts ms).map fun e => (e.1.text?.getD [], e.2.tree)) = ms.map fun m => (m.1, m.2.tree) := by
      rw [Entries.ofTexts, List.map_map]
      rfl
    have hperm : (ms.map fun m => (m.1, m.2.tree)).Perm (ns.map fun m => (m.1, m.2.tree)) := by
      have hl := hes.map fun e => (e.1.text?.getD [], e.2.tree)
      have hr := hfs.map fun e => (e.1.text?.getD [], e.2.tree)
      rw [hnamed, List.map_map] at hl hr
      refine hl.trans (List.Perm.trans (List.Perm.of_eq ?_) hr.symm)
      exact List.map_congr_left fun r hrow => congrArg (Prod.mk _) (htrees r hrow)
    have hkeys : ((ms.map fun m => (m.1, m.2.tree)).map Prod.fst).Nodup := by
      rw [List.map_map]
      exact hms
    rw [tree_mapping fun m hm => (hmv m hm).2, tree_mapping fun m hm => (hnv m hm).2,
      ← sortTexts_map (fun m : Text × Value => m.2.tree),
      ← sortTexts_map (fun m : Text × Value => m.2.tree), sortTexts_eq_of_perm hkeys hperm]

end Loaded
end Criteria
