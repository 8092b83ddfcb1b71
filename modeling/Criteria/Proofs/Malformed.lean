import Criteria.Proofs.Breakdowns
import Criteria.Proofs.Levels

namespace Criteria

def Junction.passing : Junction → Bool
  | .all => true
  | .any => false

namespace Verdict
variable {j : Junction} {r : Verdict} {rs before : List Verdict} {f : Fault} {b : Bool}

@[simp] theorem joined_cons_passing : joined j (.ok j.passing :: rs) = joined j rs := by cases j <;> rfl

@[simp] theorem joined_cons_deciding : joined j (.ok (!j.passing) :: rs) = .ok (!j.passing) := by
  cases j <;> rfl

@[simp] theorem joined_cons_error : joined j (.error f :: rs) = .error f := by cases j <;> rfl

theorem passing_or_deciding (j : Junction) (b : Bool) : b = j.passing ∨ b = !j.passing := by
  cases j <;> cases b <;> decide

theorem joined_append (h : ∀ r ∈ before, r = .ok j.passing) :
    joined j (before ++ rs) = joined j rs := by
  induction before with
  | nil => rfl
  | cons r before ih =>
    rw [List.forall_mem_cons] at h
    rw [List.cons_append, h.1, joined_cons_passing]
    exact ih h.2

theorem joined_eq_ok (h : joined j (before ++ rs) = .ok b) :
    (∀ r ∈ before, r = .ok j.passing) ∨ .ok (!j.passing) ∈ before := by
  induction before with
  | nil => exact .inl fun _ hr => nomatch hr
  | cons r before ih =>
    cases r with
    | error f => simp at h
    | ok c =>
      rcases passing_or_deciding j c with rfl | rfl
      · rw [List.cons_append, joined_cons_passing] at h
        exact (ih h).imp (fun hp => List.forall_mem_cons.2 ⟨rfl, hp⟩) (List.mem_cons_of_mem _)
      · exact .inr List.mem_cons_self

theorem joined_eq_error (h : joined j rs = .error f) :
    ∃ before after, rs = before ++ .error f :: after ∧ ∀ r ∈ before, r = .ok j.passing := by
  induction rs with
  | nil => cases j <;> exact nomatch h
  | cons r rs ih =>
    cases r with
    | error g =>
      obtain rfl : g = f := by simpa using h
      exact ⟨[], rs, rfl, fun _ hr => nomatch hr⟩
    | ok c =>
      rcases passing_or_deciding j c with rfl | rfl
      · rw [joined_cons_passing] at h
        obtain ⟨before, after, rfl, hp⟩ := ih h
        exact ⟨_ :: before, after, rfl, List.forall_mem_cons.2 ⟨rfl, hp⟩⟩
      · simp at h

end Verdict

theorem eq_ok_of_withinDepth {settings : Settings} {depth : Int} {r : Verdict} {b : Bool}
    (h : withinDepth settings depth r = .ok b) : r = .ok b := by
  rcases withinDepth_eq settings depth r with hd | hd
  · rw [hd] at h
    exact nomatch h
  · exact hd.symm.trans h

theorem eq_refusal_of_withinDepth {settings : Settings} {depth : Int} {verdict : Verdict} {r : Refusal}
    (hr : r.category ≠ .depth) (h : withinDepth settings depth verdict = .error (.refusal r)) :
    verdict = .error (.refusal r) := by
  rcases withinDepth_eq settings depth verdict with hd | hd
  · rw [hd] at h
    cases h
    exact absurd rfl hr
  · exact hd.symm.trans h

theorem holds_operators {settings : Settings} {v : Value} {entries : List (Value × Value)} {depth : Int}
    (hv : v.isObject = false) :
    holds settings (.mapping entries) v depth =
      withinDepth settings depth (junctionHolds settings .all entries v (depth + 1)) := by
  obtain ⟨hm, hi⟩ := Value.isObject_eq_false_iff.1 hv
  rw [holds_mapping, broadcast_of_leaf hi, entriesHold_of_not_mapping hm, allOperatorsHold_eq]
  rfl

/-- A key that names no operator, or a junction over what is no mapping. -/
def Malformed (e : Value × Value) : Prop :=
  Operator.ofKey? e.1 = none ∨
    ∃ j, Operator.ofKey? e.1 = some (.junction j) ∧ e.2.isMapping = false

/-- What a malformed operator is refused with. -/
inductive RefusedWith : Value × Value → Refusal → Prop where
  | unknown {key operand : Value} {name : Text} :
    Operator.ofKey? key = none → key.display = .ok name →
      RefusedWith (key, operand) (.unknownOperator name)
  | notMapping {key operand : Value} {j : Junction} :
    Operator.ofKey? key = some (.junction j) → operand.isMapping = false →
      RefusedWith (key, operand) (.operandNotMapping j)

/-- The operators in front of one, with the junction they stand under and their depth. -/
structure Front where
  junction : Junction
  depth : Int
  entries : List (Value × Value)

/-- None of them decides what the junction comes to. -/
def Front.Passes (settings : Settings) (v : Value) (front : Front) : Prop :=
  ∀ e ∈ front.entries, applyOperator settings e.1 e.2 v front.depth = .ok front.junction.passing

/-- One of them decides what the junction comes to. -/
def Front.Decides (settings : Settings) (v : Value) (front : Front) : Prop :=
  ∃ e ∈ front.entries, applyOperator settings e.1 e.2 v front.depth = .ok (!front.junction.passing)

/-- An operator is one of those under a junction, or stands under a junction among them. What stands in front
of it, and in front of each junction above it, are its fronts. -/
inductive Stands (e : Value × Value) : List Front → Junction → Int → List (Value × Value) → Prop where
  | here {j : Junction} {depth : Int} {before after : List (Value × Value)} :
    Stands e [⟨j, depth, before⟩] j depth (before ++ e :: after)
  | under {fronts : List Front} {j j' : Junction} {depth : Int} {key : Value}
    {before inner after : List (Value × Value)} :
    Operator.ofKey? key = some (.junction j') → Stands e fronts j' (depth + 1) inner →
      Stands e (⟨j, depth, before⟩ :: fronts) j depth (before ++ (key, .mapping inner) :: after)

section Reaching
variable {settings : Settings} {v operand key : Value} {e : Value × Value} {fronts : List Front}
  {j : Junction} {depth : Int} {entries before after : List (Value × Value)} {r : Refusal} {b : Bool}

theorem unknownOperator_eq_error (key : Value) : ∃ f, unknownOperator key = .error f := by
  unfold unknownOperator
  cases key.display with
  | error f => exact ⟨f, rfl⟩
  | ok name => exact ⟨_, rfl⟩

theorem RefusedWith.applyOperator (h : RefusedWith e r) :
    applyOperator settings e.1 e.2 v depth = withinDepth settings depth (.error (.refusal r)) := by
  cases h with
  | unknown hk hd =>
    rw [applyOperator_unknown hk, unknownOperator, hd]
    rfl
  | notMapping hk hm => exact applyOperator_of_not_mapping hk hm

theorem refusedWith_of_unknownOperator (hk : Operator.ofKey? key = none)
    (h : unknownOperator key = .error (.refusal r)) : RefusedWith (key, operand) r := by
  rcases bind_eq_error h with hd | ⟨name, hd, hr⟩
  · exact nomatch (Value.display_eq_error hd).1
  · cases hr
    exact .unknown hk hd

theorem Malformed.applyOperator (h : Malformed e) :
    ∃ f, applyOperator settings e.1 e.2 v depth = .error f := by
  have hfault : ∃ f, Criteria.applyOperator settings e.1 e.2 v depth =
      withinDepth settings depth (.error f) := by
    rcases h with hk | ⟨j, hk, hm⟩
    · obtain ⟨f, hf⟩ := unknownOperator_eq_error e.1
      exact ⟨f, by rw [applyOperator_unknown hk, hf]⟩
    · exact ⟨_, applyOperator_of_not_mapping hk hm⟩
  obtain ⟨f, hf⟩ := hfault
  rw [hf]
  rcases withinDepth_eq settings depth (.error f) with h | h
  · exact ⟨_, h⟩
  · exact ⟨f, h⟩

theorem junctionHolds_append (h : Front.Passes settings v ⟨j, depth, before⟩) :
    junctionHolds settings j (before ++ entries) v depth = junctionHolds settings j entries v depth := by
  rw [junctionHolds, List.map_append]
  exact Verdict.joined_append (List.forall_mem_map.2 h)

theorem junctionHolds_cons_error {f : Fault} (h : applyOperator settings e.1 e.2 v depth = .error f) :
    junctionHolds settings j (e :: entries) v depth = .error f := by
  rw [junctionHolds, List.map_cons, h]
  exact Verdict.joined_cons_error

theorem applyOperator_eq_ok (h : junctionHolds settings j (e :: entries) v depth = .ok b) :
    ∃ c, applyOperator settings e.1 e.2 v depth = .ok c := by
  cases he : applyOperator settings e.1 e.2 v depth with
  | error f =>
    rw [junctionHolds_cons_error he] at h
    exact nomatch h
  | ok c => exact ⟨c, rfl⟩

/-- Where there is a verdict, the operators in front of one all passed or one of them decided. -/
theorem passes_or_decides (h : junctionHolds settings j (before ++ entries) v depth = .ok b) :
    Front.Passes settings v ⟨j, depth, before⟩ ∨ Front.Decides settings v ⟨j, depth, before⟩ := by
  rw [junctionHolds, List.map_append] at h
  rcases Verdict.joined_eq_ok h with hp | hd
  · exact .inl (List.forall_mem_map.1 hp)
  · exact .inr (List.mem_map.1 hd)

def Stops (settings : Settings) (r : Refusal) (verdict : Verdict) : Prop :=
  verdict = .error (.refusal r) ∨ verdict = .error (tooDeep settings)

theorem Stops.withinDepth {verdict : Verdict} (h : Stops settings r verdict) :
    Stops settings r (withinDepth settings depth verdict) := by
  rcases withinDepth_eq settings depth verdict with hd | hd
  · exact .inr hd
  · rw [hd]
    exact h

theorem Stops.junctionHolds (h : Stops settings r (applyOperator settings e.1 e.2 v depth)) :
    Stops settings r (junctionHolds settings j (e :: entries) v depth) :=
  h.imp junctionHolds_cons_error junctionHolds_cons_error

/-- Behind fronts that all pass a malformed operator is refused, if the limit allows to come to it. -/
theorem Stands.stops (h : Stands e fronts j depth entries) (hr : RefusedWith e r)
    (hp : ∀ front ∈ fronts, front.Passes settings v) :
    Stops settings r (junctionHolds settings j entries v depth) := by
  induction h with
  | here =>
    rw [junctionHolds_append (List.forall_mem_singleton.1 hp)]
    apply Stops.junctionHolds
    rw [hr.applyOperator]
    exact Stops.withinDepth (.inl rfl)
  | under hk _ ih =>
    rw [List.forall_mem_cons] at hp
    rw [junctionHolds_append hp.1]
    apply Stops.junctionHolds
    rw [applyOperator_junction hk]
    exact (ih hp.2).withinDepth

/-- A verdict in spite of a malformed operator was decided in front of it. -/
theorem Stands.decided (h : Stands e fronts j depth entries) (hm : Malformed e)
    (hb : junctionHolds settings j entries v depth = .ok b) :
    ∃ front ∈ fronts, front.Decides settings v := by
  induction h generalizing b with
  | here =>
    rcases passes_or_decides hb with hp | hd
    · obtain ⟨f, hf⟩ := hm.applyOperator
      rw [junctionHolds_append hp, junctionHolds_cons_error hf] at hb
      exact nomatch hb
    · exact ⟨_, List.mem_singleton.2 rfl, hd⟩
  | @under fronts j j' depth key before inner after hk _ ih =>
    rcases passes_or_decides hb with hp | hd
    · rw [junctionHolds_append hp] at hb
      obtain ⟨c, hc⟩ := applyOperator_eq_ok hb
      rw [applyOperator_junction hk] at hc
      obtain ⟨front, hmem, hd⟩ := ih (eq_ok_of_withinDepth hc)
      exact ⟨front, List.mem_cons_of_mem _ hmem, hd⟩
    · exact ⟨_, List.mem_cons_self, hd⟩

/-- A malformed operator that is refused so stands among operators, with nothing in front of it that decides. -/
def ComesUpon (settings : Settings) (v : Value) (r : Refusal) (j : Junction) (depth : Int)
    (entries : List (Value × Value)) : Prop :=
  ∃ e fronts, Stands e fronts j depth entries ∧ RefusedWith e r ∧
    ∀ front ∈ fronts, front.Passes settings v

/-- The first operator that is refused, or one under it, is malformed. -/
theorem comesUpon_of_operators
    (hx : ∀ x ∈ entries, applyOperator settings x.1 x.2 v depth = .error (.refusal r) →
      RefusedWith x r ∨ ∃ j inner, x.2 = .mapping inner ∧ Operator.ofKey? x.1 = some (.junction j) ∧
        ComesUpon settings v r j (depth + 1) inner)
    (h : junctionHolds settings j entries v depth = .error (.refusal r)) :
    ComesUpon settings v r j depth entries := by
  obtain ⟨verdicts, others, hsplit, hpass⟩ := Verdict.joined_eq_error h
  obtain ⟨before, rest, rfl, rfl, hrest⟩ := List.map_eq_append_iff.1 hsplit
  obtain ⟨x, after, rfl, hf, -⟩ := List.map_eq_cons_iff.1 hrest
  have hfront : Front.Passes settings v ⟨j, depth, before⟩ := List.forall_mem_map.1 hpass
  have hmem : x ∈ before ++ x :: after := List.mem_append_right _ List.mem_cons_self
  rcases hx x hmem hf with hr | ⟨j', inner, hi, hk, e, fronts, hs, hr, hp⟩
  · exact ⟨x, _, .here, hr, List.forall_mem_singleton.2 hfront⟩
  · obtain ⟨key, operand⟩ := x
    cases hi
    exact ⟨e, _, .under hk hs, hr, List.forall_mem_cons.2 ⟨hfront, hp⟩⟩

theorem applyOperator_eq_refusal (hv : v.isObject = false) (hr : r.category ≠ .depth)
    (h : applyOperator settings key operand v depth = .error (.refusal r)) :
    RefusedWith (key, operand) r ∨ ∃ j inner, operand = .mapping inner ∧
      Operator.ofKey? key = some (.junction j) ∧ ComesUpon settings v r j (depth + 1) inner := by
  -- nested junctions are followed by the induction; membership and relations compare primitive values, which
  -- refuse nothing
  induction operand using Value.mapping_induction generalizing key depth with
  | step operand ih =>
    cases hk : Operator.ofKey? key with
    | none =>
      rw [applyOperator_unknown hk] at h
      exact .inl (refusedWith_of_unknownOperator hk (eq_refusal_of_withinDepth hr h))
    | some op =>
      cases op with
      | relation rel =>
        rw [applyOperator_relation hk] at h
        exact nomatch (related_eq_error (eq_refusal_of_withinDepth hr h)).ofPrimitives
      | membership =>
        rw [applyOperator_membership hk, anyItem_eq] at h
        have ht : ∀ x ∈ operand.items?.getD [], (primitiveEqual settings v x).Tells _ Fault.OfPrimitives :=
          fun x _ => .of_faults fun f hf => (primitiveEqual_eq_error hv hf).ofPrimitives
        exact nomatch (Verdict.Tells.any ht).faults _ (eq_refusal_of_withinDepth hr h)
      | junction j =>
        by_cases hm : operand.isMapping
        · obtain ⟨inner, rfl⟩ := Value.isMapping_iff.1 hm
          rw [applyOperator_junction hk] at h
          have hinner := comesUpon_of_operators (fun x hx hf => ih inner rfl x hx hf)
            (eq_refusal_of_withinDepth hr h)
          exact .inr ⟨j, inner, rfl, rfl, hinner⟩
        · rw [Bool.not_eq_true] at hm
          rw [applyOperator_of_not_mapping hk hm] at h
          cases eq_refusal_of_withinDepth hr h
          exact .inl (.notMapping hk hm)

theorem junctionHolds_eq_refusal (hv : v.isObject = false) (hr : r.category ≠ .depth)
    (h : junctionHolds settings j entries v depth = .error (.refusal r)) :
    ComesUpon settings v r j depth entries :=
  comesUpon_of_operators (fun _ _ => applyOperator_eq_refusal hv hr) h

end Reaching

/-- In a condition on a value without members, within the limit, a malformed operator leads to a refusal unless
one in front of it decides, or a comparison breaks down over a number. What is refused is the first malformed
operator that is come upon, behind operators of which none decides. -/
theorem refused_unless_decided_before (settings : Settings) (v : Value) (entries : List (Value × Value))
    (depth : Int) (hv : v.isObject = false)
    (hd : depth + (Value.mapping entries).height ≤ settings.maxDepth) :
    (∀ e fronts, Stands e fronts .all (depth + 1) entries → Malformed e →
      (∃ r, holds settings (.mapping entries) v depth = .error (.refusal r) ∧
        (r.category = .unsupportedOperation ∨ r.category = .invalidCriteria)) ∨
      (∃ front ∈ fronts, front.Decides settings v) ∨
      ∃ f, holds settings (.mapping entries) v depth = .error f ∧ NumberFault v (.mapping entries) f) ∧
    ∀ r, holds settings (.mapping entries) v depth = .error (.refusal r) ↔
      ∃ e fronts, Stands e fronts .all (depth + 1) entries ∧ RefusedWith e r ∧
        ∀ front ∈ fronts, front.Passes settings v := by
  -- the value has no levels of its own, so the limit is never met and every refusal is of another category
  have hlimit : ¬FailsForDepth (holds settings (.mapping entries) v depth) := by
    have hlevels := (Value.mapping entries).levels_le_height
    apply holds_not_failsForDepth
    rw [Value.sequenceDepth, Value.weight_of_primitive hv]
    omega
  have hcategory : ∀ r, holds settings (.mapping entries) v depth = .error (.refusal r) →
      r.category ≠ .depth := fun r hr hdepth => hlimit ⟨_, hr, r, rfl, hdepth⟩
  constructor
  · intro e fronts hs hm
    cases hb : holds settings (.mapping entries) v depth with
    | ok b =>
      rw [holds_operators hv] at hb
      exact .inr (.inl (hs.decided hm (eq_ok_of_withinDepth hb)))
    | error f =>
      rcases ((holds_tells settings (.mapping entries) v depth).faults f hb).announced_or_numbers with
        ⟨r, rfl, hr⟩ | hn
      · have hcases : r.category = .invalidCriteria ∨ r.category = .unsupportedOperation ∨
            r.category = .depth := by
          simpa [announcedCategories] using hr
        rcases hcases with h | h | h
        · exact .inl ⟨r, rfl, .inr h⟩
        · exact .inl ⟨r, rfl, .inl h⟩
        · exact absurd h (hcategory r hb)
      · exact .inr (.inr ⟨f, rfl, hn⟩)
  · intro r
    constructor
    · intro hr
      have hnot := hcategory r hr
      rw [holds_operators hv] at hr
      exact junctionHolds_eq_refusal hv hnot (eq_refusal_of_withinDepth hnot hr)
    · rintro ⟨e, fronts, hs, hr, hp⟩
      rw [holds_operators hv] at hlimit ⊢
      rcases (hs.stops hr hp).withinDepth with h | h
      · exact h
      · exact absurd ⟨_, h, _, rfl, rfl⟩ hlimit

/-- Seven passes the operators in front of an unknown one; three does not pass the first of them. -/
theorem refused_unless_decided_before_above_five :
    let gt : Value × Value := (.text "gt", .int 5)
    let lt : Value × Value := (.text "lt", .int 9)
    let unknown : Value × Value := (.text "foo", .int 1)
    let entries : List (Value × Value) := [gt, (.text "and", .mapping [lt, unknown])]
    let fronts : List Front := [⟨.all, 1, [gt]⟩, ⟨.all, 2, [lt]⟩]
    ((Value.int 7).isObject = false ∧ (Value.int 3).isObject = false ∧
      0 + ((Value.mapping entries).height : Int) ≤ Settings.default.maxDepth ∧
      Stands unknown fronts .all 1 entries ∧ Malformed unknown) ∧
    holds .default (.mapping entries) (.int 7) 0 = .error (.refusal (.unknownOperator "foo")) ∧
    ∃ front ∈ fronts, front.Decides .default (.int 3) := by
  intro gt lt unknown entries fronts
  have hheight : 0 + ((Value.mapping entries).height : Int) ≤ Settings.default.maxDepth := by decide
  have hinner : Stands unknown [⟨.all, 2, [lt]⟩] .all 2 ([lt] ++ unknown :: []) := .here
  have hstands : Stands unknown fronts .all 1 ([gt] ++ (.text "and", .mapping [lt, unknown]) :: []) :=
    .under rfl hinner
  have hmalformed : Malformed unknown := .inl rfl
  refine ⟨⟨rfl, rfl, hheight, hstands, hmalformed⟩, ?_, ?_⟩
  · refine ((refused_unless_decided_before .default (.int 7) entries 0 rfl hheight).2 _).2
      ⟨unknown, fronts, hstands, .unknown rfl rfl, ?_⟩
    rw [List.forall_mem_cons, List.forall_mem_singleton]
    exact ⟨List.forall_mem_singleton.2 (by decide +kernel), List.forall_mem_singleton.2 (by decide +kernel)⟩
  · have hfalse : holds .default (.mapping entries) (.int 3) 0 = .ok false := by decide +kernel
    rcases (refused_unless_decided_before .default (.int 3) entries 0 rfl hheight).1 unknown fronts hstands
      hmalformed with ⟨r, hr, -⟩ | hdecides | ⟨f, hf, -⟩
    · exact nomatch hfalse.symm.trans hr
    · exact hdecides
    · exact nomatch hfalse.symm.trans hf

/-- Three is held against an unknown operator behind one that does not hold, and against a junction over what is
no mapping behind one that does, under `or`. Both come to a verdict. -/
theorem malformed_operators_passed_over :
    let unknown : Value × Value := (.text "foo", .int 1)
    let bare : Value × Value := (.text "and", .int 1)
    let below : Value × Value := (.text "lt", .int 5)
    let both : List (Value × Value) := [(.text "gt", .int 5), unknown]
    let either : List (Value × Value) := [(.text "or", .mapping [below, bare])]
    (Value.int 3).isObject = false ∧
    (Malformed unknown ∧ unknown ∈ both ∧
      0 + ((Value.mapping both).height : Int) ≤ Settings.default.maxDepth ∧
      holds .default (.mapping both) (.int 3) 0 = .ok false) ∧
    (Malformed bare ∧ (∃ fronts, Stands bare fronts .all 1 either) ∧
      0 + ((Value.mapping either).height : Int) ≤ Settings.default.maxDepth ∧
      holds .default (.mapping either) (.int 3) 0 = .ok true) := by
  intro unknown bare below both either
  have hunknown : holds .default (.mapping both) (.int 3) 0 = .ok false := by decide +kernel
  have hbare : holds .default (.mapping either) (.int 3) 0 = .ok true := by decide +kernel
  have hinner : Stands bare [⟨.any, 2, [below]⟩] .any 2 ([below] ++ bare :: []) := .here
  have hstands : Stands bare (⟨.all, 1, []⟩ :: [⟨.any, 2, [below]⟩]) .all 1
      ([] ++ (.text "or", .mapping [below, bare]) :: []) := .under rfl hinner
  refine ⟨rfl, ⟨.inl rfl, ?_, by decide, hunknown⟩, .inr ⟨.all, rfl, rfl⟩, ⟨_, hstands⟩, by decide, hbare⟩
  exact List.mem_cons_of_mem _ List.mem_cons_self

end Criteria
