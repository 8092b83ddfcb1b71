import Criteria.Proofs.Canonical
import Criteria.Proofs.Printable

namespace Criteria
open Json
variable {dates : Bool} {v w : Value} {text : List Char}

/-- Scalars of one type that are written in the same way. -/
inductive SameScalar : Value → Value → Prop where
  | null : SameScalar .null .null
  | bool (b : Bool) : SameScalar (.bool b) (.bool b)
  | int {m n : ℤ} : toString m = toString n → SameScalar (.int m) (.int n)
  | float {x y : Binary64} : x.format floatLayout = y.format floatLayout →
    SameScalar (.number (.float x)) (.number (.float y))
  | text (s : Text) : SameScalar (.text s) (.text s)
  | moment {m n : Moment} : m.isoText = n.isoText → SameScalar (.moment m) (.moment n)

theorem Json.IsToken.unique {token token' : Token} {rest : List Char} (h : IsToken text token rest)
    (h' : IsToken text token' rest) : token = token' := by
  obtain ⟨c, cs, rfl, -, -, hscan⟩ := h
  obtain ⟨d, ds, heq, -, -, hscan'⟩ := h'
  cases heq
  exact (Prod.mk.inj ((hscan 0).symm.trans (hscan' 0))).1

theorem format_injective {x y : Binary64} (h : x.format floatLayout = y.format floatLayout) : x = y := by
  have hx := isToken_float x endsNumber_nil
  rw [h] at hx
  exact Token.float.inj (hx.unique (isToken_float y endsNumber_nil))

theorem toString_injective {m n : ℤ} (h : toString m = toString n) : m = n := by
  have hm := isToken_int m endsNumber_nil
  rw [h] at hm
  obtain ⟨hsign, hdigits⟩ := Token.int.inj (hm.unique (isToken_int n endsNumber_nil))
  have habs : m.natAbs = n.natAbs := by
    rw [← Nat.ofDigitChars_ten_toDigits (n := m.natAbs), hdigits, Nat.ofDigitChars_ten_toDigits]
  rw [decide_eq_decide] at hsign
  omega

namespace Loaded

theorem eq_of_sameScalar (hv : Loaded dates v) (h : SameScalar v w) (hw : Loaded dates w) : v = w := by
  cases h with
  | int h => rw [toString_injective h]
  | float h => rw [format_injective h]
  | moment h =>
    cases hv with
    | moment _ hm =>
      cases hw with
      | moment _ hn =>
        have heq := moment_isoText _ hm
        rw [h, moment_isoText _ hn] at heq
        rw [Except.ok.inj heq]
  | _ => rfl

theorem sameScalar_self (h : Loaded dates v) (hv : v.isObject = false) : SameScalar v v := by
  cases h with
  | null => exact .null
  | bool b => exact .bool b
  | int => exact .int rfl
  | float x => exact .float rfl
  | text => exact .text _
  | moment => exact .moment rfl
  | list => exact nomatch hv
  | mapping => exact nomatch hv

end Loaded

theorem SameTree.mono {same same' : Value → Value → Prop} (h : SameTree same v w) (hv : Loaded dates v)
    (hw : Loaded dates w) (hs : ∀ {v w}, v.isObject = false → Loaded dates v → Loaded dates w → same v w → same' v w) :
    SameTree same' v w := by
  induction h with
  | scalar hov how h => exact .scalar hov how (hs hov hv hw h)
  | list rows hrows ih =>
    refine .list rows fun r hr => ih r hr ?_ ?_
    · exact hv.of_mem_items rfl (List.mem_map_of_mem hr)
    · exact hw.of_mem_items rfl (List.mem_map_of_mem hr)
  | mapping rows hes hfs hrows ih =>
    refine .mapping rows hes hfs fun r hr => ih r hr ?_ ?_
    · exact Loaded.of_mem_entries hv (hes.symm.subset (List.mem_map_of_mem hr))
    · have hmem := hfs.symm.subset (List.mem_map.2 ⟨r, hr, rfl⟩)
      exact Loaded.of_mem_entries (e := (r.1, r.2.2)) hw hmem

theorem canonicalText_eq (h : Loaded dates v) :
    v.canonicalText = .ok (String.ofList (v.tree.chars compact 0)) := by
  rw [Value.canonicalText, h.canonical_eq]
  rfl

/-- Loaded values are the same up to the order of entries exactly if their canonical trees are written in one way. -/
theorem chars_tree_eq_iff (hv : Loaded dates v) (hw : Loaded dates w) :
    v.tree.chars compact 0 = w.tree.chars compact 0 ↔ SameTree SameScalar v w := by
  constructor
  · intro h
    obtain ⟨u, hu, hvu⟩ := hv.exists_denote
    obtain ⟨u', hu', hwu⟩ := hw.exists_denote
    -- one text is read as one value, which both trees are
    have hread : v.tree.denote (Document.closing dates) = w.tree.denote (Document.closing dates) := by
      rw [← read_chars_self _ isPlain_compact, h, read_chars_self _ isPlain_compact]
    have huu' : u = u' := Except.ok.inj (hu.symm.trans (hread.trans hu'))
    have hvw : SameTree (· = ·) v w := hvu.of_common (fun h h' => h.trans h'.symm) (huu' ▸ hwu)
    exact hvw.mono hv hw fun ho hv _ heq => heq ▸ hv.sameScalar_self ho
  · intro h
    have hvw : SameTree (· = ·) v w := h.mono hv hw fun _ hv hw hs => hv.eq_of_sameScalar hs hw
    rw [hv.tree_eq hvw hw]

/-- The texts that two loaded criteria are hashed as are equal exactly if the criteria are the same tree up to the order
of entries; so a change of that order changes no fingerprint. -/
theorem canonicalText_eq_iff_sameTree (files files' : Files) (path path' : FilePath) (dates : Bool) (c c' : Value)
    (hc : Document.load files .criteria path dates = .ok c)
    (hc' : Document.load files' .criteria path' dates = .ok c') :
    ∃ s s', c.canonicalText = .ok s ∧ c'.canonicalText = .ok s' ∧ fingerprint c = .ok (hexDigest s) ∧
      fingerprint c' = .ok (hexDigest s') ∧ (s = s' ↔ SameTree SameScalar c c') ∧
      (SameTree SameScalar c c' → fingerprint c = fingerprint c') := by
  have hv := Document.loaded_of_load hc
  have hw := Document.loaded_of_load hc'
  have hiff := chars_tree_eq_iff hv hw
  have hprint {v : Value} (hv : Loaded dates v) :
      fingerprint v = .ok (hexDigest (String.ofList (v.tree.chars compact 0))) := by
    rw [fingerprint, canonicalText_eq hv]
    rfl
  refine ⟨_, _, canonicalText_eq hv, canonicalText_eq hw, hprint hv, hprint hw, ?_, ?_⟩
  · rw [← hiff]
    exact ⟨fun h => by simpa using congrArg String.toList h, fun h => congrArg String.ofList h⟩
  · intro h
    rw [hprint hv, hprint hw, hiff.2 h]

/-- Of three criteria with a date the second has the entries of the first in another order, and the third has a text
in place of the date. -/
theorem canonicalText_eq_iff_sameTree_reordered :
    let noon : Moment := ⟨⟨2024, 1, 31, by decide⟩, ⟨12, 0, 0, 0⟩, none⟩
    let date : Json := .object [(dateKey, .string noon.isoText)]
    let file : Json → Files := fun j _ => .file (String.ofList (j.chars compact 0)).toUTF8.toList
    let p : Value := .mapping [(.text "a", .moment noon), (.text "b", .int 1)]
    let q : Value := .mapping [(.text "b", .int 1), (.text "a", .moment noon)]
    let r : Value := .mapping [(.text "a", .text noon.isoText), (.text "b", .int 1)]
    let path : FilePath := ⟨[], ["c"]⟩
    Document.load (file (.object [("a", date), ("b", .int 1)])) .criteria path true = .ok p ∧
      Document.load (file (.object [("b", .int 1), ("a", date)])) .criteria path true = .ok q ∧
      Document.load (file (.object [("a", .string noon.isoText), ("b", .int 1)])) .criteria path true = .ok r ∧
      p.canonicalText = q.canonicalText ∧ fingerprint p = fingerprint q ∧ p.canonicalText ≠ r.canonicalText := by
  intro noon date file p q r path
  have hdate : date.denote (Document.closing true) = .ok (.moment noon) :=
    Loaded.denote_moment fun o ho => absurd ho (Option.not_mem_none o)
  have hload {j : Json} {v : Value} (h : j.denote (Document.closing true) = .ok v) (hv : v.isMapping = true)
      (hshape : Shape.check v = .ok none) : Document.load (file j) .criteria path true = .ok v :=
    load_chars rfl h hv fun _ => hshape
  have hp : Document.load (file (.object [("a", date), ("b", .int 1)])) .criteria path true = .ok p := by
    refine hload ?_ rfl (by decide +kernel)
    rw [denote, denoteMembers, hdate]
    rfl
  have hq : Document.load (file (.object [("b", .int 1), ("a", date)])) .criteria path true = .ok q := by
    refine hload ?_ rfl (by decide +kernel)
    rw [denote, denoteMembers, denoteMembers, hdate]
    rfl
  have hr : Document.load (file (.object [("a", .string noon.isoText), ("b", .int 1)])) .criteria path true =
      .ok r := by
    refine hload ?_ rfl (by decide +kernel)
    have htext : joinPairs noon.isoText = noon.isoText := isJoined_ofChars _
    rw [denote, denoteMembers, denote, htext]
    rfl
  have hsame : SameTree SameScalar p q :=
    .mapping [(.text "a", .moment noon, .moment noon), (.text "b", .int 1, .int 1)] (.refl _) (.swap _ _ _)
      (List.forall_mem_cons.2 ⟨.scalar rfl rfl (.moment rfl), List.forall_mem_singleton.2 (.scalar rfl rfl (.int rfl))⟩)
  have hdiffer : ¬SameTree SameScalar p r := by
    intro h
    obtain ⟨e, he, hkey, hvalue⟩ := h.exists_entry (f := (.text "a", .text noon.isoText)) (List.mem_cons_self ..)
    rcases List.mem_cons.1 he with rfl | he
    · cases hvalue with
      | scalar _ _ h => cases h
    · rw [List.mem_singleton.1 he] at hkey
      exact absurd (Value.text.inj hkey) (by decide)
  obtain ⟨s, t, hs, ht, -, -, hst, hprint⟩ := canonicalText_eq_iff_sameTree _ _ path path true p q hp hq
  obtain ⟨s', u, hs', hu, -, -, hsu, -⟩ := canonicalText_eq_iff_sameTree _ _ path path true p r hp hr
  cases Except.ok.inj (hs.symm.trans hs')
  refine ⟨hp, hq, hr, ?_, hprint hsame, ?_⟩
  · rw [hs, ht, hst.2 hsame]
  · rw [hs, hu]
    exact fun h => hdiffer (hsu.1 (Except.ok.inj h))

end Criteria
