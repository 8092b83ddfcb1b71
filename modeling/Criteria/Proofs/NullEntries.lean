import Criteria.Proofs.Keys
import Criteria.Proofs.SideBySide
import Mathlib.Logic.Relation

namespace Criteria

/-- One mapping in a value, at any place, gets a further entry that holds null. Its key is new there. -/
inductive GainsNull : Value → Value → Prop where
  | entry {key : Value} {before after : List (Value × Value)} :
    key.IsKey → Entries.get? (before ++ after) key = none →
      GainsNull (.mapping (before ++ after)) (.mapping (before ++ (key, .null) :: after))
  | field {key v w : Value} {before after : List (Value × Value)} : GainsNull v w →
      GainsNull (.mapping (before ++ (key, v) :: after)) (.mapping (before ++ (key, w) :: after))
  | listItem {v w : Value} {before after : List Value} : GainsNull v w →
      GainsNull (.list (before ++ v :: after)) (.list (before ++ w :: after))
  | tupleItem {v w : Value} {before after : List Value} : GainsNull v w →
      GainsNull (.tuple (before ++ v :: after)) (.tuple (before ++ w :: after))

/-- One value is made from the other by adding and deleting entries that hold null. -/
abbrev EqualButNulls : Value → Value → Prop := Relation.EqvGen GainsNull

/-- Values in which every look-up finds what cannot be told apart, null being taken for what is not there. -/
inductive NullBlind : Value → Value → Prop where
  | absent {v w : Value} : v.kind.isAbsent = true → w.kind.isAbsent = true → NullBlind v w
  | same (v : Value) : NullBlind v v
  | list {xs ys : List Value} : List.Forall₂ NullBlind xs ys → NullBlind (.list xs) (.list ys)
  | tuple {xs ys : List Value} : List.Forall₂ NullBlind xs ys → NullBlind (.tuple xs) (.tuple ys)
  | mapping {es fs : List (Value × Value)} :
    (∀ key, NullBlind (Entries.get es key) (Entries.get fs key)) → NullBlind (.mapping es) (.mapping fs)

theorem forall₂_nullBlind_same (xs : List Value) : List.Forall₂ NullBlind xs xs :=
  List.forall₂_same.2 fun x _ => .same x

theorem unseen_nullBlind : Unseen NullBlind where
  undefined := .same .undefined
  list := .list
  items := by
    intro v w xs h hv
    cases h with
    | absent ha =>
      cases v with
      | list _ => exact nomatch ha
      | tuple _ => exact nomatch ha
      | _ => exact nomatch hv
    | same => exact ⟨xs, hv, forall₂_nullBlind_same xs⟩
    | list h => cases hv; exact ⟨_, rfl, h⟩
    | tuple h => cases hv; exact ⟨_, rfl, h⟩
    | mapping => exact nomatch hv
  fields := by
    intro es w h
    cases h with
    | absent ha => exact nomatch ha
    | same => exact ⟨es, rfl, fun key => .same _⟩
    | mapping h => exact ⟨_, rfl, h⟩
  primitive := by
    intro v w h hv
    cases h with
    | absent ha hb => exact .inr ⟨ha, hb⟩
    | same => exact .inl rfl
    | list => exact nomatch hv
    | tuple => exact nomatch hv
    | mapping => exact nomatch hv

theorem GainsNull.kind_eq {v w : Value} (h : GainsNull v w) : v.kind = w.kind := by
  cases h <;> rfl

theorem GainsNull.nullBlind {v w : Value} (h : GainsNull v w) : NullBlind v w := by
  induction h with
  | @entry k before after hk hnew =>
    apply NullBlind.mapping
    intro key
    rw [Entries.get, Entries.get, Entries.get?_insert_new hk hnew]
    by_cases hsame : k.sameKey key
    · rw [if_pos hsame, Entries.get?_eq_none_of_sameKey hk hnew hsame]
      exact .absent rfl rfl
    · rw [if_neg hsame]
      exact .same _
  | @field k v w before after _ ih =>
    apply NullBlind.mapping
    intro key
    unfold Entries.get
    rcases Entries.get?_replace before after k v w key with heq | ⟨hv, hw⟩
    · rw [heq]
      exact .same _
    · rw [hv, hw]
      exact ih
  | listItem _ ih =>
    exact .list (List.rel_append (forall₂_nullBlind_same _) (.cons ih (forall₂_nullBlind_same _)))
  | tupleItem _ ih =>
    exact .tuple (List.rel_append (forall₂_nullBlind_same _) (.cons ih (forall₂_nullBlind_same _)))

/-- Entries that hold null make no difference to an evaluation: not to its verdict, not to the fault it ends with
and not to what it logs. -/
theorem isEligible_eq_of_equalButNulls (settings : Settings) (record record' criteria : Value)
    (h : EqualButNulls record record') :
    isEligible settings record criteria = isEligible settings record' criteria := by
  induction h with
  | rel v w hstep =>
    have hd : Headroom (fun _ => False) settings settings 0 0 := .same rfl
    rcases isEligible_alike unseen_nullBlind hd hstep.nullBlind hstep.kind_eq with ⟨f, -, hf⟩ | heq
    · exact hf.elim
    · exact heq
  | refl v => rfl
  | symm v w _ ih => exact ih.symm
  | trans u v w _ _ ih ih' => exact ih.trans ih'

/-- In a mapping within a list one null is deleted and another is added, under a tuple for a key. -/
theorem isEligible_eq_of_equalButNulls_in_list :
    let shared : Value × Value := (.int 1, .list [.int 2])
    let item : Value := .mapping [(.text "b", .null), shared]
    let item' : Value := .mapping [shared, (.tuple [.text "c", .bool true], .null)]
    let record : Value := .mapping [(.text "a", .list [item])]
    let record' : Value := .mapping [(.text "a", .list [item'])]
    let criteria : Value := .mapping [(.text "a.b", .list [.null, .text "x"]),
      (.text "a", .mapping [(.bool true, .mapping [(.text "gte", .int 2)])])]
    EqualButNulls record record' ∧ (isEligible .default record criteria).outcome = .ok true ∧
      (isEligible .default record' criteria).outcome = .ok true := by
  intro shared item item' record record' criteria
  have hdeleted : GainsNull (.mapping [shared]) item := by
    refine @GainsNull.entry (.text "b") [] [shared] (.primitive rfl) ?_
    exact Entries.get?_eq_none_iff.2 (by decide +kernel)
  have hadded : GainsNull (.mapping [shared]) item' := by
    have hkey : (Value.tuple [.text "c", .bool true]).IsKey :=
      .tuple (List.forall_mem_cons.2 ⟨.primitive rfl, List.forall_mem_singleton.2 (.primitive rfl)⟩)
    refine @GainsNull.entry _ [shared] [] hkey ?_
    exact Entries.get?_eq_none_iff.2 (by decide +kernel)
  have hplace {v w : Value} (h : GainsNull v w) :
      GainsNull (.mapping [(.text "a", .list [v])]) (.mapping [(.text "a", .list [w])]) :=
    @GainsNull.field (.text "a") _ _ [] [] (@GainsNull.listItem v w [] [] h)
  have h : EqualButNulls record record' :=
    .trans _ _ _ (.symm _ _ (.rel _ _ (hplace hdeleted))) (.rel _ _ (hplace hadded))
  have hout : (isEligible .default record criteria).outcome = .ok true := by decide +kernel
  refine ⟨h, hout, ?_⟩
  rw [← isEligible_eq_of_equalButNulls .default record record' criteria h]
  exact hout

end Criteria
