import Criteria.Document
import Criteria.Explanation.Json
import Criteria.Proofs.Breakdowns
import Criteria.Proofs.MomentText
import Criteria.Proofs.Soundness
import Criteria.Proofs.StringText
import Criteria.Proofs.WellShaped

namespace Criteria
open Json (IsJoined)
variable {dates : Bool} {v w : Value}

def Entries.ofTexts (members : List (Text × Value)) : List (Value × Value) :=
  members.map fun m => (.text m.1, m.2)

namespace Entries
variable {members : List (Text × Value)}

@[simp] theorem ofTexts_cons (m : Text × Value) (ms : List (Text × Value)) :
    ofTexts (m :: ms) = (.text m.1, m.2) :: ofTexts ms := rfl

@[simp] theorem sameKey_text (s t : Text) : (Value.text s).sameKey (.text t) = (s == t) := by
  rw [Value.sameKey, Value.equal?]
  cases s == t <;> rfl

theorem exists_insert (name : Text) (value : Value) (ms : List (Text × Value)) :
    ∃ ns, insert (.text name) value (ofTexts ms) = ofTexts ns ∧
      (ns.map Prod.fst = ms.map Prod.fst ∧ name ∈ ms.map Prod.fst ∨
        name ∉ ms.map Prod.fst ∧ ns = ms ++ [(name, value)]) ∧
      ∀ n ∈ ns, n ∈ ms ∨ n = (name, value) := by
  induction ms with
  | nil => exact ⟨[(name, value)], rfl, .inr ⟨List.not_mem_nil, rfl⟩, fun n hn => .inr (List.mem_singleton.1 hn)⟩
  | cons m ms ih =>
    rw [ofTexts_cons, insert, sameKey_text]
    by_cases hm : m.1 = name
    · refine ⟨(m.1, value) :: ms, by simp [hm], .inl ⟨rfl, by simp [hm]⟩, ?_⟩
      intro n hn
      rcases List.mem_cons.1 hn with rfl | hn
      · exact .inr (by rw [hm])
      · exact .inl (List.mem_cons_of_mem _ hn)
    · obtain ⟨ns, hinsert, hkeys, hvalues⟩ := ih
      refine ⟨m :: ns, by simp [hm, hinsert], ?_, ?_⟩
      · rcases hkeys with ⟨hkeys, hmem⟩ | ⟨hnew, rfl⟩
        · exact .inl ⟨by simp [hkeys], by simp [hmem]⟩
        · exact .inr ⟨by simpa [Ne.symm hm] using hnew, rfl⟩
      · intro n hn
        rcases List.mem_cons.1 hn with rfl | hn
        · exact .inl List.mem_cons_self
        · exact (hvalues n hn).imp_left (List.mem_cons_of_mem _)

/-- Pairs with texts for keys leave some of them as entries, of distinct texts. -/
theorem exists_ofPairs (ms : List (Text × Value)) :
    ∃ ns, ofPairs (ofTexts ms) = ofTexts ns ∧ (ns.map Prod.fst).Nodup ∧ ns ⊆ ms := by
  have hfold (acc : List (Text × Value)) (hacc : (acc.map Prod.fst).Nodup) :
      ∃ ns, (ofTexts ms).foldl (fun es e => insert e.1 e.2 es) (ofTexts acc) = ofTexts ns ∧ (ns.map Prod.fst).Nodup ∧
        ∀ n ∈ ns, n ∈ acc ∨ n ∈ ms := by
    induction ms generalizing acc with
    | nil => exact ⟨acc, rfl, hacc, fun n hn => .inl hn⟩
    | cons m ms ih =>
      obtain ⟨ns, hinsert, hkeys, hvalues⟩ := exists_insert m.1 m.2 acc
      have hns : (ns.map Prod.fst).Nodup := by
        rcases hkeys with ⟨hkeys, -⟩ | ⟨hnew, rfl⟩
        · exact hkeys ▸ hacc
        · rw [List.map_append]
          refine List.nodup_append.2 ⟨hacc, List.nodup_singleton _, ?_⟩
          intro a ha b hb hab
          rw [hab, List.mem_singleton.1 hb] at ha
          exact hnew ha
      obtain ⟨os, hfold, hos, hfrom⟩ := ih ns hns
      refine ⟨os, ?_, hos, ?_⟩
      · simp [hinsert, hfold]
      · intro o ho
        rcases hfrom o ho with hn | hm
        · exact (hvalues o hn).imp_right fun heq => by simp [heq]
        · exact .inr (List.mem_cons_of_mem _ hm)
  obtain ⟨ns, hns, hnodup, hvalues⟩ := hfold [] List.nodup_nil
  exact ⟨ns, hns, hnodup, fun n hn => (hvalues n hn).resolve_left List.not_mem_nil⟩

theorem ofPairs_of_nodup (h : (members.map Prod.fst).Nodup) : ofPairs (ofTexts members) = ofTexts members := by
  have hfold (acc ms : List (Text × Value)) (h : ((acc ++ ms).map Prod.fst).Nodup) :
      (ofTexts ms).foldl (fun es e => insert e.1 e.2 es) (ofTexts acc) = ofTexts (acc ++ ms) := by
    induction ms generalizing acc with
    | nil => rw [List.append_nil]; rfl
    | cons m ms ih =>
      obtain ⟨ns, hinsert, hkeys, -⟩ := exists_insert m.1 m.2 acc
      have hnew : m.1 ∉ acc.map Prod.fst := by
        intro hmem
        rw [List.map_append, List.nodup_append] at h
        exact h.2.2 _ hmem _ List.mem_cons_self rfl
      have hns : ns = acc ++ [m] := (hkeys.resolve_left fun hk => hnew hk.2).2
      have happend : acc ++ m :: ms = (acc ++ [m]) ++ ms := by rw [List.append_assoc]; rfl
      rw [ofTexts_cons, List.foldl_cons, hinsert, hns, ih (acc ++ [m]) (happend ▸ h), ← happend]
  exact hfold [] members h

end Entries

/-- The values that documents hold, with or without a search for dates. No text in them has the two halves of
a pair side by side. -/
inductive Loaded (dates : Bool) : Value → Prop where
  | null : Loaded dates .null
  | bool (b : Bool) : Loaded dates (.bool b)
  | int {n : ℤ} : IsShort n → Loaded dates (.int n)
  | float (x : Binary64) : Loaded dates (.number (.float x))
  | text {s : Text} : IsJoined s → Loaded dates (.text s)
  | moment {m : Moment} : dates = true → (∀ o ∈ m.offset, o.IsReadable) → Loaded dates (.moment m)
  | list {items : List Value} : (∀ x ∈ items, Loaded dates x) → Loaded dates (.list items)
  | mapping {members : List (Text × Value)} : (members.map Prod.fst).Nodup →
    (∀ m ∈ members, IsJoined m.1) → (∀ m ∈ members, Loaded dates m.2) →
    (dates = true → ∀ x, members ≠ [(dateKey, x)]) →
    Loaded dates (.mapping (Entries.ofTexts members))

namespace Loaded

theorem number {n : Number} (h : Loaded dates v) (hn : n ∈ v.numbers) :
    n.isDecimal = false ∧ ∀ k, n = .int k → IsShort k := by
  induction h with
  | int hs =>
    cases List.mem_singleton.1 hn
    exact ⟨rfl, fun k hk => by cases hk; exact hs⟩
  | float x =>
    cases List.mem_singleton.1 hn
    exact ⟨rfl, fun k hk => nomatch hk⟩
  | list _ ih =>
    rw [Value.numbers_of_items? rfl] at hn
    obtain ⟨x, hx, hn⟩ := List.mem_flatMap.1 hn
    exact ih x hx hn
  | mapping _ _ _ _ ih =>
    rw [Value.numbers_mapping, Entries.ofTexts, List.flatMap_map] at hn
    obtain ⟨m, hm, hn⟩ := List.mem_flatMap.1 hn
    exact ih m hm hn
  | _ => exact nomatch hn

theorem isShort (h : Loaded dates v) : ∀ n ∈ v.integers, IsShort n :=
  fun n hn => (h.number (Value.mem_integers_iff.1 hn)).2 n rfl

theorem not_tooLongIn {f : Fault} (h : Loaded dates v) : ¬TooLongIn v f :=
  fun ⟨_, n, hn, hs⟩ => hs (h.isShort n hn)

theorem not_numberFault {f : Fault} (hv : Loaded dates v) (hw : Loaded dates w) : ¬NumberFault v w f := by
  rintro (⟨hm, hn, hinvalid⟩ | ⟨hn, hs⟩)
  · rw [Number.orderInvalid, (hv.number hm).1, (hw.number hn).1, Bool.or_self, Bool.and_false] at hinvalid
    exact Bool.noConfusion hinvalid
  · rcases hn with hn | hn
    · exact hs ((hv.number hn).2 _ rfl)
    · exact hs ((hw.number hn).2 _ rfl)

theorem exists_literal (h : Loaded dates v) : ∃ text, v.literal = .ok text := by
  cases hl : v.literal with
  | ok text => exact ⟨text, rfl⟩
  | error f => exact absurd (Value.literal_eq_error hl) h.not_tooLongIn

theorem rendered_eq (h : Loaded dates v) : v.rendered = v := by
  induction h with
  | list _ ih => rw [Value.rendered_of_items? rfl, List.map_congr_left ih, List.map_id']
  | _ => rfl

theorem entries_eq_ofTexts {entries : List (Value × Value)} (h : Loaded dates (.mapping entries)) :
    ∃ members, entries = Entries.ofTexts members ∧ (members.map Prod.fst).Nodup ∧
      ∀ m ∈ members, IsJoined m.1 ∧ Loaded dates m.2 := by
  generalize hv : Value.mapping entries = v at h
  cases h with
  | mapping hkeys hjoined hm =>
    cases hv
    exact ⟨_, rfl, hkeys, fun m hmem => ⟨hjoined m hmem, hm m hmem⟩⟩
  | _ => exact nomatch hv

theorem of_mem_entries {entries : List (Value × Value)} (h : Loaded dates (.mapping entries)) {e : Value × Value}
    (he : e ∈ entries) : Loaded dates e.2 := by
  obtain ⟨members, rfl, -, hm⟩ := entries_eq_ofTexts h
  obtain ⟨m, hm', rfl⟩ := List.mem_map.1 he
  exact (hm m hm').2

theorem of_mem_items {items : List Value} {x : Value} (h : Loaded dates v) (hi : v.items? = some items)
    (hx : x ∈ items) : Loaded dates x := by
  cases h with
  | list hall =>
    cases hi
    exact hall x hx
  | _ => exact nomatch hi

theorem rendered_field (h : Loaded dates v.rendered) (segment : Text) : Loaded dates (v.field segment).rendered := by
  cases v with
  | mapping entries =>
    rw [Value.field, Entries.get, Entries.get?]
    cases hf : entries.find? fun e => e.1.sameKey (.text segment) with
    | none => exact .null
    | some e =>
      have he : Loaded dates e.2 := of_mem_entries h (List.mem_of_find?_eq_some hf)
      exact he.rendered_eq ▸ he
  | _ => exact .null

theorem rendered_of_mem_items {items : List Value} {x : Value} (h : Loaded dates v.rendered)
    (hi : v.items? = some items) (hx : x ∈ items) : Loaded dates x.rendered := by
  rw [Value.rendered_of_items? hi] at h
  exact h.of_mem_items rfl (List.mem_map_of_mem hx)

theorem rendered_of_mem_leaves {l : Value} (h : Loaded dates v.rendered) (hl : l ∈ v.leaves) :
    Loaded dates l.rendered := by
  induction v using Value.sequence_induction with
  | leaf v hv =>
    obtain rfl : l = v := by simpa [hv] using hl
    assumption
  | sequence v items hv ih =>
    rw [Value.leaves_of_items? hv] at hl
    obtain ⟨x, hx, hl⟩ := List.mem_flatMap.1 hl
    exact ih x hx (rendered_of_mem_items h hv hx) hl

theorem rendered_branch (h : Loaded dates v.rendered) (segment : Text) :
    Loaded dates (v.branch segment).rendered := by
  cases hi : v.items? with
  | none =>
    rw [Value.branch_of_leaf hi]
    exact rendered_field h segment
  | some items =>
    rw [Value.branch_of_items? hi, Value.rendered_of_items? rfl]
    refine .list fun y hy => ?_
    obtain ⟨x, hx, rfl⟩ := List.mem_map.1 hy
    obtain ⟨l, hl, hx⟩ := List.mem_flatMap.1 hx
    have hfield := rendered_field (rendered_of_mem_leaves h hl) segment
    cases hf : (l.field segment).items? with
    | none =>
      rw [Value.spread, hf, Option.getD_none, List.mem_singleton] at hx
      rwa [hx]
    | some items =>
      rw [Value.spread, hf, Option.getD_some] at hx
      exact rendered_of_mem_items hfield hf hx

theorem rendered_along (h : Loaded dates v) (path : List Text) : Loaded dates (v.along path).rendered := by
  have hall (path : List Text) (v : Value) (h : Loaded dates v.rendered) : Loaded dates (v.along path).rendered := by
    induction path generalizing v with
    | nil => exact h
    | cons segment path ih => exact ih _ (rendered_branch h segment)
  exact hall path v (h.rendered_eq.symm ▸ h)

theorem hasWritableKeys (h : Loaded dates v) : Shape.HasWritableKeys v := Shape.hasWritableKeys_of_short h.isShort

theorem exists_check (h : Loaded dates v) : ∃ problem, Shape.check v = .ok problem := by
  obtain ⟨problem, hcheck, -⟩ := Shape.check_iff h.hasWritableKeys
  exact ⟨problem, hcheck⟩

theorem check_eq_none_iff (h : Loaded dates v) : Shape.check v = .ok none ↔ Shape.WellShaped v := by
  obtain ⟨problem, hcheck, hiff⟩ := Shape.check_iff h.hasWritableKeys
  rw [hcheck, ← hiff, Except.ok.injEq]

end Loaded
end Criteria
