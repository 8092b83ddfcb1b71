import Criteria.Proofs.Eligibility
import Mathlib.Logic.Relation

namespace Criteria

/-- A change at one place in a value: to the whole, to an item, or to what stands under a key. -/
inductive Within (R : Value → Value → Prop) : Value → Value → Prop where
  | whole {c d : Value} : R c d → Within R c d
  | listItem {c d : Value} {before after : List Value} : Within R c d →
      Within R (.list (before ++ c :: after)) (.list (before ++ d :: after))
  | tupleItem {c d : Value} {before after : List Value} : Within R c d →
      Within R (.tuple (before ++ c :: after)) (.tuple (before ++ d :: after))
  | entry {key c d : Value} {before after : List (Value × Value)} : Within R c d →
      Within R (.mapping (before ++ (key, c) :: after)) (.mapping (before ++ (key, d) :: after))

/-- Another order of the entries of a mapping or of the items of a sequence. -/
inductive Reorders : Value → Value → Prop where
  | mapping {es fs : List (Value × Value)} : es.Perm fs → Reorders (.mapping es) (.mapping fs)
  | list {xs ys : List Value} : xs.Perm ys → Reorders (.list xs) (.list ys)
  | tuple {xs ys : List Value} : xs.Perm ys → Reorders (.tuple xs) (.tuple ys)

/-- Another order, or a further item in a sequence, which may be one that is there already. -/
inductive Widens : Value → Value → Prop where
  | reorder {c d : Value} : Reorders c d → Widens c d
  | listItem {x : Value} {before after : List Value} :
      Widens (.list (before ++ after)) (.list (before ++ x :: after))
  | tupleItem {x : Value} {before after : List Value} :
      Widens (.tuple (before ++ after)) (.tuple (before ++ x :: after))

variable {settings : Settings} {c d : Value}

/-- Whatever the first value allows the second does, be it read as a condition, as the operand of an operator, as a
candidate or as criteria. -/
structure Weaker (settings : Settings) (c d : Value) : Prop where
  condition : ∀ v, Satisfies settings v c → Satisfies settings v d
  operand : ∀ key l, l.isObject = false → OperatorHolds settings key l c → OperatorHolds settings key l d
  candidate : ∀ l, l.isObject = false → primitiveEqual settings l c = .ok true →
    primitiveEqual settings l d = .ok true
  criteria : ∀ record, Meets settings record c → Meets settings record d

theorem Weaker.refl (c : Value) : Weaker settings c c :=
  ⟨fun _ => id, fun _ _ _ => id, fun _ _ => id, fun _ => id⟩

theorem Weaker.of_items {xs ys : List Value} (hc : c.items? = some xs) (hd : d.items? = some ys)
    (h : ∀ x ∈ xs, ∃ y ∈ ys, Weaker settings x y) : Weaker settings c d where
  condition v hs := by
    obtain ⟨x, hx, hs⟩ := (satisfies_iff_item hc).1 hs
    obtain ⟨y, hy, hxy⟩ := h x hx
    exact (satisfies_iff_item hd).2 ⟨y, hy, hxy.condition v hs⟩
  operand key l hl ho := by
    -- a sequence is an operand of membership alone
    cases ho with
    | relation hk hr =>
      rw [related_of_isObject hl (Value.isObject_of_items? hc)] at hr
      exact nomatch hr
    | membership hk hi hx he =>
      rw [hc] at hi
      cases hi
      obtain ⟨y, hy, hxy⟩ := h _ hx
      exact .membership hk hd hy (hxy.candidate l hl he)
    | all => exact nomatch hc
    | any => exact nomatch hc
  candidate l hl he := by
    rw [primitiveEqual_of_isObject hl (Value.isObject_of_items? hc)] at he
    exact nomatch he
  criteria record hm := by
    obtain ⟨entries, rfl, -⟩ := hm
    exact nomatch hc

/-- The same key with a weaker value. -/
structure EntryWeaker (settings : Settings) (e f : Value × Value) : Prop where
  key : e.1 = f.1
  value : Weaker settings e.2 f.2

theorem EntryWeaker.refl (e : Value × Value) : EntryWeaker settings e e := ⟨rfl, .refl e.2⟩

theorem Weaker.of_entries {es fs : List (Value × Value)}
    (hef : ∀ e ∈ es, ∃ f ∈ fs, EntryWeaker settings e f)
    (hfe : ∀ f ∈ fs, ∃ e ∈ es, EntryWeaker settings e f) :
    Weaker settings (.mapping es) (.mapping fs) where
  -- a conjunction needs every new entry to weaken an old one, a disjunction every old one to have a weaker one
  condition v hs := by
    obtain ⟨l, hl, hs⟩ := satisfies_iff_leaf.1 hs
    refine satisfies_iff_leaf.2 ⟨l, hl, ?_⟩
    have hleaf := Value.items?_of_mem_leaves hl
    rw [satisfies_leaf hleaf rfl] at hs ⊢
    rcases Value.mapping_or_primitive hleaf with ⟨fields, rfl⟩ | hprim
    · rw [leafSatisfies_mapping] at hs ⊢
      intro f hf
      obtain ⟨e, he, hkey, hw⟩ := hfe f hf
      rw [← hkey]
      exact hw.condition _ (hs e he)
    · have hm := (Value.isObject_eq_false_iff.1 hprim).1
      rw [leafSatisfies_operators hm] at hs ⊢
      intro f hf
      obtain ⟨e, he, hkey, hw⟩ := hfe f hf
      rw [← hkey]
      exact hw.operand _ l hprim (hs e he)
  operand key l hl ho := by
    cases ho with
    | relation hk hr =>
      rw [related_of_isObject hl rfl] at hr
      exact nomatch hr
    | membership hk hi => exact nomatch hi
    | all hk hall =>
      refine .all hk fun f hf => ?_
      obtain ⟨e, he, hkey, hw⟩ := hfe f hf
      rw [← hkey]
      exact hw.operand _ l hl (hall e he)
    | any hk he ho =>
      obtain ⟨f, hf, hkey, hw⟩ := hef _ he
      rw [hkey] at ho
      exact .any hk hf (hw.operand _ l hl ho)
  -- a mapping is equal to no primitive, so neither candidates nor relations are affected
  candidate l hl he := by
    rw [primitiveEqual_of_isObject hl rfl] at he
    exact nomatch he
  criteria record hm := by
    obtain ⟨entries, heq, hall⟩ := hm
    cases heq
    refine ⟨fs, rfl, fun f hf => ?_⟩
    obtain ⟨e, he, hkey, hw⟩ := hfe f hf
    obtain ⟨path, hp, hs⟩ := hall e he
    exact ⟨path, hkey ▸ hp, hw.condition _ hs⟩

theorem Weaker.trans {e : Value} (hcd : Weaker settings c d) (hde : Weaker settings d e) :
    Weaker settings c e where
  condition v hs := hde.condition v (hcd.condition v hs)
  operand key l hl ho := hde.operand key l hl (hcd.operand key l hl ho)
  candidate l hl he := hde.candidate l hl (hcd.candidate l hl he)
  criteria record hm := hde.criteria record (hcd.criteria record hm)

theorem exists_mem_replace {α : Type} {R : α → α → Prop} (hR : ∀ x, R x x) {a b : α} (h : R a b)
    {before after : List α} : ∀ x ∈ before ++ a :: after, ∃ y ∈ before ++ b :: after, R x y := by
  intro x hx
  rw [List.mem_append, List.mem_cons] at hx
  rcases hx with hx | rfl | hx
  · exact ⟨x, by simp [hx], hR x⟩
  · exact ⟨b, by simp, h⟩
  · exact ⟨x, by simp [hx], hR x⟩

theorem Widens.weaker (h : Widens c d) : Weaker settings c d := by
  cases h with
  | reorder h =>
    cases h with
    | mapping hp =>
      apply Weaker.of_entries
      · exact fun e he => ⟨e, hp.mem_iff.1 he, .refl e⟩
      · exact fun f hf => ⟨f, hp.mem_iff.2 hf, .refl f⟩
    | list hp => exact .of_items rfl rfl fun x hx => ⟨x, hp.mem_iff.1 hx, .refl x⟩
    | tuple hp => exact .of_items rfl rfl fun x hx => ⟨x, hp.mem_iff.1 hx, .refl x⟩
  | listItem =>
    refine .of_items rfl rfl fun x hx => ⟨x, ?_, .refl x⟩
    exact (List.sublist_cons_self _ _).append_left _ |>.subset hx
  | tupleItem =>
    refine .of_items rfl rfl fun x hx => ⟨x, ?_, .refl x⟩
    exact (List.sublist_cons_self _ _).append_left _ |>.subset hx

theorem Within.weaker (h : Within Widens c d) : Weaker settings c d := by
  induction h with
  | whole h => exact h.weaker
  | listItem _ ih => exact .of_items rfl rfl (exists_mem_replace Weaker.refl ih)
  | tupleItem _ ih => exact .of_items rfl rfl (exists_mem_replace Weaker.refl ih)
  | @entry key c d _ _ _ ih =>
    have hentry : EntryWeaker settings (key, c) (key, d) := ⟨rfl, ih⟩
    apply Weaker.of_entries
    · exact exists_mem_replace EntryWeaker.refl hentry
    · exact exists_mem_replace (R := fun f e => EntryWeaker settings e f) EntryWeaker.refl hentry

theorem Within.mono {R S : Value → Value → Prop} (hRS : ∀ c d, R c d → S c d) (h : Within R c d) :
    Within S c d := by
  induction h with
  | whole h => exact .whole (hRS _ _ h)
  | listItem _ ih => exact .listItem ih
  | tupleItem _ ih => exact .tupleItem ih
  | entry _ ih => exact .entry ih

theorem Reorders.symm (h : Reorders c d) : Reorders d c := by
  cases h with
  | mapping hp => exact .mapping hp.symm
  | list hp => exact .list hp.symm
  | tuple hp => exact .tuple hp.symm

theorem Within.symm {R : Value → Value → Prop} (hR : ∀ c d, R c d → R d c) (h : Within R c d) :
    Within R d c := by
  induction h with
  | whole h => exact .whole (hR _ _ h)
  | listItem _ ih => exact .listItem ih
  | tupleItem _ ih => exact .tupleItem ih
  | entry _ ih => exact .entry ih

theorem weaker_of_widened (h : Relation.ReflTransGen (Within Widens) c d) : Weaker settings c d := by
  induction h with
  | refl => exact .refl c
  | tail _ hstep ih => exact ih.trans hstep.weaker

theorem weaker_of_reordered (h : Relation.EqvGen (Within Reorders) c d) :
    Weaker settings c d ∧ Weaker settings d c := by
  induction h with
  | rel c d hstep =>
    have hmono {c d : Value} (h : Within Reorders c d) : Weaker settings c d :=
      (h.mono fun _ _ => .reorder).weaker
    exact ⟨hmono hstep, hmono (hstep.symm fun _ _ => Reorders.symm)⟩
  | refl c => exact ⟨.refl c, .refl c⟩
  | symm c d _ ih => exact ⟨ih.2, ih.1⟩
  | trans c d e _ _ ih ih' => exact ⟨ih.1.trans ih'.1, ih'.2.trans ih.2⟩

/-- A true verdict does not become false when entries and items of the criteria are reordered and items are added
to its sequences, as often and at whatever depth; and where nothing is added no verdict turns into the other. -/
theorem isEligible_of_widened (settings : Settings) (record : Value) :
    (∀ criteria criteria', Relation.ReflTransGen (Within Widens) criteria criteria' →
      (isEligible settings record criteria).outcome = .ok true →
      (isEligible settings record criteria').outcome ≠ .ok false) ∧
    ∀ criteria criteria', Relation.EqvGen (Within Reorders) criteria criteria' → ∀ b b',
      (isEligible settings record criteria).outcome = .ok b →
      (isEligible settings record criteria').outcome = .ok b' → b = b' := by
  constructor
  · intro criteria criteria' hwidened htrue hfalse
    have hmeets := (weaker_of_widened hwidened).criteria record ((isEligible_iff_meets htrue).1 rfl)
    exact Bool.noConfusion ((isEligible_iff_meets hfalse).2 hmeets)
  · intro criteria criteria' hreordered b b' hb hb'
    obtain ⟨hweaker, hweaker'⟩ := weaker_of_reordered hreordered
    rw [Bool.eq_iff_iff, isEligible_iff_meets hb, isEligible_iff_meets hb']
    exact ⟨hweaker.criteria record, hweaker'.criteria record⟩

/-- A candidate and an alternative are added, of which the alternative names no operator; and the entries around them
are reordered, at the top and in an operand. -/
theorem isEligible_of_widened_alternatives :
    let record : Value := .mapping [(.text "a", .mapping [(.text "b", .int 5)])]
    let gt : Value × Value := (.text "gt", .int 9)
    let among : List Value → Value × Value := fun candidates => (.text "in", .list candidates)
    let dotted : List (Value × Value) → Value × Value := fun entries =>
      (.text "a.b", .mapping [(.text "or", .mapping entries)])
    let nested : List Value → Value × Value := fun alternatives =>
      (.text "a", .mapping [(.text "b", .tuple alternatives)])
    let stray : Value := .mapping [(.text "near", .int 1)]
    let criteria : Value := .mapping [dotted [gt, among [.int 5]], nested [.int 5]]
    let reordered : Value := .mapping [nested [.int 5], dotted [among [.int 5], gt]]
    let widened : Value := .mapping [nested [stray, .int 5], dotted [among [.null, .int 5], gt]]
    (Relation.ReflTransGen (Within Widens) criteria widened ∧
      (isEligible .default record criteria).outcome = .ok true ∧
      (isEligible .default record widened).outcome ≠ .ok false) ∧
    Relation.EqvGen (Within Reorders) criteria reordered ∧
    ∃ b b', (isEligible .default record criteria).outcome = .ok b ∧
      (isEligible .default record reordered).outcome = .ok b' ∧ b = b' := by
  intro record gt among dotted nested stray criteria reordered widened
  obtain ⟨hwiden, hreorder⟩ := isEligible_of_widened .default record
  -- first in the operand, then at the top; a candidate, then an alternative
  have hoperand : Within Reorders criteria (.mapping [dotted [among [.int 5], gt], nested [.int 5]]) :=
    @Within.entry _ _ _ _ [] [_] (@Within.entry _ _ _ _ [] [] (.whole (.mapping (.swap ..))))
  have htop : Within Reorders (.mapping [dotted [among [.int 5], gt], nested [.int 5]]) reordered :=
    .whole (.mapping (.swap ..))
  have hcandidate : Within Widens reordered
      (.mapping [nested [.int 5], dotted [among [.null, .int 5], gt]]) := by
    have hamong : Within Widens (.mapping [among [.int 5], gt]) (.mapping [among [.null, .int 5], gt]) :=
      @Within.entry _ _ _ _ [] [_] (.whole (@Widens.listItem .null [] [.int 5]))
    exact @Within.entry _ _ _ _ [_] [] (@Within.entry _ _ _ _ [] [] hamong)
  have halternative : Within Widens (.mapping [nested [.int 5], dotted [among [.null, .int 5], gt]])
      widened := by
    have hnested : Within Widens (.mapping [(.text "b", .tuple [.int 5])])
        (.mapping [(.text "b", .tuple [stray, .int 5])]) :=
      @Within.entry _ _ _ _ [] [] (.whole (@Widens.tupleItem stray [] [.int 5]))
    exact @Within.entry _ _ _ _ [] [_] hnested
  have hreordered : Relation.EqvGen (Within Reorders) criteria reordered :=
    .trans _ _ _ (.rel _ _ hoperand) (.rel _ _ htop)
  have hwidened : Relation.ReflTransGen (Within Widens) criteria widened :=
    .tail (.tail (.tail (.tail .refl (hoperand.mono fun _ _ => .reorder)) (htop.mono fun _ _ => .reorder))
      hcandidate) halternative
  have htrue : (isEligible .default record criteria).outcome = .ok true := by decide +kernel
  have htrue' : (isEligible .default record reordered).outcome = .ok true := by decide +kernel
  exact ⟨⟨hwidened, htrue, hwiden _ _ hwidened htrue⟩, hreordered, true, true, htrue, htrue',
    hreorder _ _ hreordered true true htrue htrue'⟩

end Criteria
