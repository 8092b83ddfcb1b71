import Criteria.Proofs.Comparison
import Criteria.Proofs.Keys
import Criteria.Proofs.Matching
import Mathlib.Data.List.Forall2

namespace Criteria

/-- One level that agrees: the same primitive, sequences of one length, or mappings with the same keys in the
same order. The members are related. -/
inductive SameLevel (R : Value → Value → Prop) : Value → Value → Prop where
  | primitive {v : Value} : v.isObject = false → SameLevel R v v
  | sequence {v w : Value} {xs ys : List Value} : v.items? = some xs → w.items? = some ys →
      List.Forall₂ R xs ys → SameLevel R v w
  | mapping {es fs : List (Value × Value)} :
      List.Forall₂ (fun e f => e.1 = f.1 ∧ R e.2 f.2) es fs → SameLevel R (.mapping es) (.mapping fs)

/-- The upper levels of two values agree. Nothing is said of what stands below them. -/
def AgreeTo : Nat → Value → Value → Prop
  | 0 => fun _ _ => True
  | levels + 1 => SameLevel (AgreeTo levels)

variable {settings : Settings} {v w c d l m x y key operand operand' : Value} {depth : Int}
  {levels levels' room : Nat}

theorem SameLevel.mono {R S : Value → Value → Prop} (hRS : ∀ v w, R v w → S v w)
    (h : SameLevel R v w) : SameLevel S v w := by
  cases h with
  | primitive hv => exact .primitive hv
  | sequence hv hw h => exact .sequence hv hw (h.imp hRS)
  | mapping h => exact .mapping (h.imp fun _ _ h => ⟨h.1, hRS _ _ h.2⟩)

theorem AgreeTo.upper (h : AgreeTo (levels + 1) v w) : AgreeTo levels v w := by
  induction levels generalizing v w with
  | zero => trivial
  | succ levels ih => exact SameLevel.mono (fun _ _ => ih) h

theorem AgreeTo.mono (h : AgreeTo levels v w) (hle : levels' ≤ levels) : AgreeTo levels' v w := by
  induction levels with
  | zero => rwa [Nat.le_zero.1 hle]
  | succ levels ih =>
    rcases Nat.le_or_eq_of_le_succ hle with hlt | rfl
    · exact ih h.upper hlt
    · exact h

theorem AgreeTo.refl (levels : Nat) (v : Value) : AgreeTo levels v v := by
  induction levels generalizing v with
  | zero => trivial
  | succ levels ih =>
    have hitems (items : List Value) : List.Forall₂ (AgreeTo levels) items items :=
      List.forall₂_same.2 fun v _ => ih v
    cases v with
    | list items => exact SameLevel.sequence rfl rfl (hitems items)
    | tuple items => exact SameLevel.sequence rfl rfl (hitems items)
    | mapping entries => exact SameLevel.mapping (List.forall₂_same.2 fun e _ => ⟨rfl, ih e.2⟩)
    | _ => exact SameLevel.primitive rfl

/-- Values that have members cannot be seen to differ by a comparison with a primitive. -/
theorem SameLevel.eq_or_isObject {R : Value → Value → Prop} (h : SameLevel R v w) :
    v = w ∨ v.isObject = true ∧ w.isObject = true := by
  cases h with
  | primitive => exact .inl rfl
  | sequence hv hw => exact .inr ⟨Value.isObject_of_items? hv, Value.isObject_of_items? hw⟩
  | mapping => exact .inr ⟨rfl, rfl⟩

theorem SameLevel.primitiveEqual_eq {R : Value → Value → Prop} (hl : l.isObject = false)
    (h : SameLevel R x y) : primitiveEqual settings l x = primitiveEqual settings l y := by
  rcases h.eq_or_isObject with rfl | ⟨hx, hy⟩
  · rfl
  · rw [primitiveEqual_of_isObject hl hx, primitiveEqual_of_isObject hl hy]

theorem SameLevel.related_eq {R : Value → Value → Prop} {r : Relation} (hl : l.isObject = false)
    (h : SameLevel R x y) : related settings r l x = related settings r l y := by
  rcases h.eq_or_isObject with rfl | ⟨hx, hy⟩
  · rfl
  · rw [related_of_isObject hl hx, related_of_isObject hl hy]

theorem AgreeTo.get {es fs : List (Value × Value)}
    (h : List.Forall₂ (fun e f => e.1 = f.1 ∧ AgreeTo levels e.2 f.2) es fs) (key : Value) :
    AgreeTo levels (Entries.get es key) (Entries.get fs key) := by
  unfold Entries.get
  induction h with
  | nil => exact .refl levels .undefined
  | @cons e f es fs hef _ ih =>
    obtain ⟨hkey, hvalue⟩ := hef
    rw [Entries.get?_cons, Entries.get?_cons, hkey]
    by_cases hsame : f.1.sameKey key
    · rw [if_pos hsame, if_pos hsame]
      exact hvalue
    · rw [if_neg hsame, if_neg hsame]
      exact ih

theorem map_eq_map_of_forall₂ {α β : Type} {f : α → Verdict} {g : β → Verdict} {xs : List α} {ys : List β}
    (h : List.Forall₂ (fun x y => f x = g y) xs ys) : xs.map f = ys.map g := by
  rwa [← List.forall₂_eq_eq_eq, List.forall₂_map_left_iff, List.forall₂_map_right_iff]

/-- A broadcast goes down as many levels of a value as there is room for, and tests leaves that agree in what is left
of the levels. -/
theorem broadcast_congr {test test' : Value → Int → Verdict}
    (ht : ∀ (l m : Value) (levels : Nat) (d : Int), l.items? = none → levels < room →
      AgreeTo (levels + 1) l m → settings.maxDepth ≤ d + levels → test l d = test' m d)
    (hroom : settings.maxDepth < depth + room) (h : AgreeTo room v w) :
    broadcast settings test depth v = broadcast settings test' depth w := by
  induction room generalizing v w depth with
  | zero => rw [broadcast_of_lt (by omega), broadcast_of_lt (by omega)]
  | succ room ih =>
    have hleaf : v.items? = none → test v depth = test' w depth :=
      fun hv => ht v w room depth hv (by omega) h (by omega)
    cases h with
    | primitive hv =>
      have hv := (Value.isObject_eq_false_iff.1 hv).2
      rw [broadcast_of_leaf hv, broadcast_of_leaf hv, hleaf hv]
    | mapping => rw [broadcast_of_leaf rfl, broadcast_of_leaf rfl, hleaf rfl]
    | sequence hv hw hxy =>
      rw [broadcast_of_items? hv, broadcast_of_items? hw, broadcastItems_eq, broadcastItems_eq]
      have hitems : List.Forall₂ (fun x y => broadcast settings test (depth + 1) x =
          broadcast settings test' (depth + 1) y) _ _ :=
        hxy.imp fun x y => ih (fun l m levels d hl hlt => ht l m levels d hl (by omega)) (by omega)
      rw [map_eq_map_of_forall₂ hitems]

/-- An operator looks one level further down its operand than there is room for operators under it: at the candidates
of a membership. -/
theorem applyOperator_congr (hl : l.isObject = false) (hroom : settings.maxDepth < depth + room)
    (h : AgreeTo (room + 1) operand operand') :
    applyOperator settings key operand l depth = applyOperator settings key operand' l depth := by
  induction room generalizing key operand operand' depth with
  | zero => rw [applyOperator_of_lt (by omega), applyOperator_of_lt (by omega)]
  | succ room ih =>
    cases hk : Operator.ofKey? key with
    | none => rw [applyOperator_unknown hk, applyOperator_unknown hk]
    | some op =>
      cases op with
      | relation r =>
        rw [applyOperator_relation hk, applyOperator_relation hk, SameLevel.related_eq hl h]
      | membership =>
        rw [applyOperator_membership hk, applyOperator_membership hk]
        cases h with
        | primitive => rfl
        | mapping => rfl
        | sequence hi hi' hxy =>
          rw [hi, hi', Option.getD_some, Option.getD_some, anyItem_eq, anyItem_eq,
            map_eq_map_of_forall₂ (hxy.imp fun x y hxy => SameLevel.primitiveEqual_eq hl hxy)]
      | junction j =>
        cases h with
        | primitive => rfl
        | sequence hi hi' =>
          rw [applyOperator_of_not_mapping hk (Value.isMapping_of_items? hi),
            applyOperator_of_not_mapping hk (Value.isMapping_of_items? hi')]
        | @mapping es fs hef =>
          -- the operators under the junction stand one level deeper, and so do their operands
          have hin : es.map (fun e => applyOperator settings e.1 e.2 l (depth + 1)) =
              fs.map fun f => applyOperator settings f.1 f.2 l (depth + 1) :=
            map_eq_map_of_forall₂ (hef.imp fun e f ⟨hkey, hvalue⟩ => hkey ▸ ih (by omega) hvalue)
          rw [applyOperator_junction hk, applyOperator_junction hk, junctionHolds, junctionHolds, hin]

/-- A condition on a field is looked at one level further down than a condition on a value: through a sequence of
alternatives. -/
theorem fieldHolds_congr (hcd : AgreeTo (2 * levels + 1) c d)
    (ih : ∀ c d, AgreeTo (2 * levels) c d → holds settings c v depth = holds settings d w depth) :
    fieldHolds settings c v depth = fieldHolds settings d w depth := by
  have hupper := ih c d hcd.upper
  cases hcd with
  | primitive hc =>
    have hc := (Value.isObject_eq_false_iff.1 hc).2
    rw [fieldHolds_of_leaf hc, fieldHolds_of_leaf hc, hupper]
  | mapping => rw [fieldHolds_of_leaf rfl, fieldHolds_of_leaf rfl, hupper]
  | sequence hc hd hxy =>
    rw [fieldHolds_of_items? hc, fieldHolds_of_items? hd, anyHolds_eq, anyHolds_eq,
      map_eq_map_of_forall₂ (hxy.imp ih)]

theorem entriesHold_congr {es fs : List (Value × Value)} (hl : l.items? = none)
    (hlm : AgreeTo (levels + 1) l m) (hroom : settings.maxDepth ≤ depth + levels)
    (hef : List.Forall₂ (fun e f => e.1 = f.1 ∧ AgreeTo (2 * levels + 1) e.2 f.2) es fs)
    (ih : ∀ v w, AgreeTo levels v w → ∀ c d, AgreeTo (2 * levels) c d →
      holds settings c v (depth + 1) = holds settings d w (depth + 1)) :
    entriesHold settings es l depth = entriesHold settings fs m depth := by
  cases hlm with
  | primitive hprim =>
    have hm := (Value.isObject_eq_false_iff.1 hprim).1
    rw [entriesHold_of_not_mapping hm, entriesHold_of_not_mapping hm, allOperatorsHold_eq, allOperatorsHold_eq]
    refine congrArg Verdict.all (map_eq_map_of_forall₂ (hef.imp fun e f ⟨hkey, hvalue⟩ => ?_))
    have hoperand : AgreeTo (levels + 1) e.2 f.2 := hvalue.mono (by omega)
    rw [hkey]
    exact applyOperator_congr hprim (by omega) hoperand
  | sequence hl' => exact nomatch hl.symm.trans hl'
  | mapping hfields =>
    rw [entriesHold, entriesHold, allFieldsHold_eq, allFieldsHold_eq]
    exact congrArg Verdict.all (map_eq_map_of_forall₂ (hef.imp fun e f ⟨hkey, hvalue⟩ =>
      hkey ▸ fieldHolds_congr hvalue (ih _ _ (AgreeTo.get hfields e.1))))

theorem holds_congr (hroom : settings.maxDepth < depth + room) (hvw : AgreeTo room v w)
    (hcd : AgreeTo (2 * room) c d) : holds settings c v depth = holds settings d w depth := by
  induction room using Nat.strong_induction_on generalizing v w c d depth with
  | _ room ih =>
    cases room with
    | zero => rw [holds_of_lt (by omega), holds_of_lt (by omega)]
    | succ room =>
      have hcd : SameLevel (AgreeTo (2 * room + 1)) c d := hcd
      cases hcd with
      | primitive hc =>
        rw [holds_of_primitive hc, holds_of_primitive hc]
        refine broadcast_congr (fun l m levels d hl _ hlm _ => ?_) hroom hvw
        cases hlm with
        | primitive => rfl
        | sequence hl' => exact nomatch hl.symm.trans hl'
        | mapping => rfl
      | sequence hc hd hxy =>
        rw [holds_of_items? hc, holds_of_items? hd]
        refine broadcast_congr (fun l m levels d _ hlt hlm hd => ?_) hroom hvw
        -- the alternatives stand one level deeper than the leaf that they are held against
        rw [anyHolds_eq, anyHolds_eq]
        exact congrArg Verdict.any (map_eq_map_of_forall₂ (hxy.imp fun a b hab =>
          ih levels hlt (by omega) hlm.upper (hab.mono (by omega))))
      | mapping hef =>
        rw [holds_mapping, holds_mapping]
        refine broadcast_congr (fun l m levels d hl hlt hlm hd => ?_) hroom hvw
        refine entriesHold_congr hl hlm hd (hef.imp fun e f h => ⟨h.1, h.2.mono (by omega)⟩) ?_
        exact fun v w hvw c d hcd => ih levels hlt (by omega) hvw hcd

/-- What matching comes to, at any depth, depends on no more levels of the value than lie between the depth and the
limit, and on twice as many of the condition. -/
theorem holds_eq_of_agreeTo (settings : Settings) (v w c d : Value) (depth : Int)
    (hvw : AgreeTo (settings.maxDepth + 1 - depth).toNat v w)
    (hcd : AgreeTo (2 * (settings.maxDepth + 1 - depth).toNat) c d) :
    holds settings c v depth = holds settings d w depth :=
  holds_congr (by omega) hvw hcd

/-- One level below the root, a limit of two leaves two levels of the value to look at and four of the condition.
An alternative that settles the condition within them settles it for every value that stands below; otherwise
the evaluation ends at the limit for every one. -/
theorem holds_eq_of_agreeTo_two_levels :
    let two : Settings := ⟨2, false, by decide⟩
    let record : Value → Value := fun below => .mapping [(.text "a", .mapping [(.text "b", below)])]
    let condition : Value → Value → Value := fun first below =>
      .mapping [(.text "a", .list [first, .mapping [(.text "b", .tuple [below])]])]
    AgreeTo (two.maxDepth + 1 - (1 : Int)).toNat (record (.int 1)) (record (.list [])) ∧
      (∀ first, AgreeTo (2 * (two.maxDepth + 1 - (1 : Int)).toNat) (condition first (.int 1))
        (condition first .null)) ∧
      (holds two (condition (.mapping []) (.int 1)) (record (.int 1)) 1 = .ok true ∧
        holds two (condition (.mapping []) .null) (record (.list [])) 1 = .ok true) ∧
      holds two (condition (.text "x") (.int 1)) (record (.int 1)) 1 = .error (tooDeep two) ∧
      holds two (condition (.text "x") .null) (record (.list [])) 1 = .error (tooDeep two) := by
  intro two record condition
  have hrecord : AgreeTo 2 (record (.int 1)) (record (.list [])) :=
    .mapping (.cons ⟨rfl, .mapping (.cons ⟨rfl, trivial⟩ .nil)⟩ .nil)
  have hcondition (first : Value) : AgreeTo 4 (condition first (.int 1)) (condition first .null) := by
    have hlast : AgreeTo 2 (.mapping [(.text "b", .tuple [.int 1])]) (.mapping [(.text "b", .tuple [.null])]) :=
      .mapping (.cons ⟨rfl, .sequence rfl rfl (.cons trivial .nil)⟩ .nil)
    exact .mapping (.cons ⟨rfl, .sequence rfl rfl (.cons (.refl 2 first) (.cons hlast .nil))⟩ .nil)
  have hsame (first : Value) : holds two (condition first (.int 1)) (record (.int 1)) 1 =
      holds two (condition first .null) (record (.list [])) 1 :=
    holds_eq_of_agreeTo two _ _ _ _ 1 hrecord (hcondition first)
  have htrue : holds two (condition (.mapping []) (.int 1)) (record (.int 1)) 1 = .ok true := by
    decide +kernel
  have hdeep : holds two (condition (.text "x") (.int 1)) (record (.int 1)) 1 = .error (tooDeep two) := by
    decide +kernel
  exact ⟨hrecord, hcondition, ⟨htrue, hsame _ ▸ htrue⟩, hdeep, hsame _ ▸ hdeep⟩

end Criteria
