import Criteria.Proofs.Explanation
import Criteria.Proofs.Keys

namespace Criteria

mutual

/-- Whether the mark of what is not there is somewhere in a value, be it in a key. -/
def Value.hasMark : Value → Bool
  | .undefined => true
  | .list items => Value.anyHasMark items
  | .tuple items => Value.anyHasMark items
  | .mapping entries => Value.anyEntryHasMark entries
  | _ => false

def Value.anyHasMark : List Value → Bool
  | [] => false
  | v :: vs => v.hasMark || Value.anyHasMark vs

def Value.anyEntryHasMark : List (Value × Value) → Bool
  | [] => false
  | (k, v) :: es => k.hasMark || v.hasMark || Value.anyEntryHasMark es

end

namespace Value

/-- How a value is shown: sequences as lists, item by item, null for what is not there, and all else as it is. -/
inductive ShownAs : Value → Value → Prop where
  | undefined : ShownAs .undefined .null
  | sequence {v : Value} {items shown : List Value} :
    v.items? = some items → List.Forall₂ ShownAs items shown → ShownAs v (.list shown)
  | same {v : Value} : v.items? = none → v ≠ .undefined → ShownAs v v

/-- The mark is all of a value or nowhere in it. -/
def IsMarkOrWhole (v : Value) : Prop := v.hasMark = true → v = .undefined

/-- The mark is in a value at most as all of it or as items of a list. -/
def IsMarkedOnTop (v : Value) : Prop :=
  v.hasMark = true → v = .undefined ∨ ∃ items, v = .list items ∧ ∀ x ∈ items, x.IsMarkOrWhole

variable {v x : Value} {items : List Value} {entries : List (Value × Value)} {segment : Text}

theorem hasMark_of_items? (h : v.items? = some items) : v.hasMark = true ↔ ∃ x ∈ items, x.hasMark = true := by
  have hall : ∀ xs, anyHasMark xs = xs.any hasMark := by
    intro xs
    induction xs with
    | nil => rfl
    | cons x xs ih => rw [anyHasMark, ih, List.any_cons]
  rw [← List.any_eq_true, ← hall]
  cases v <;> simp_all [items?, hasMark]

theorem hasMark_of_mem_entries {e : Value × Value} (he : e ∈ entries) (h : e.2.hasMark = true) :
    (mapping entries).hasMark = true := by
  rw [hasMark]
  induction entries with
  | nil => exact nomatch he
  | cons d es ih =>
    rw [anyEntryHasMark, Bool.or_eq_true, Bool.or_eq_true]
    rcases List.mem_cons.1 he with rfl | he
    · exact .inl (.inr h)
    · exact .inr (ih he)

theorem IsMarkOrWhole.isMarkedOnTop (h : v.IsMarkOrWhole) : v.IsMarkedOnTop := fun hv => .inl (h hv)

theorem isMarkOrWhole_undefined : IsMarkOrWhole .undefined := fun _ => rfl

theorem IsMarkOrWhole.of_mem_items (h : v.IsMarkOrWhole) (hi : v.items? = some items) (hx : x ∈ items) :
    x.IsMarkOrWhole := by
  intro hmark
  rw [h ((hasMark_of_items? hi).2 ⟨x, hx, hmark⟩)] at hi
  exact nomatch hi

theorem IsMarkOrWhole.of_mem_entries (h : (mapping entries).IsMarkOrWhole) {e : Value × Value} (he : e ∈ entries) :
    e.2.IsMarkOrWhole := by
  intro hmark
  exact nomatch h (hasMark_of_mem_entries he hmark)

theorem IsMarkedOnTop.of_mem_items (h : v.IsMarkedOnTop) (hi : v.items? = some items) (hx : x ∈ items) :
    x.IsMarkOrWhole := by
  intro hmark
  rcases h ((hasMark_of_items? hi).2 ⟨x, hx, hmark⟩) with rfl | ⟨xs, rfl, hxs⟩
  · exact nomatch hi
  · cases hi
    exact hxs x hx hmark

theorem IsMarkedOnTop.of_leaf (h : v.IsMarkedOnTop) (hi : v.items? = none) : v.IsMarkOrWhole := by
  intro hmark
  rcases h hmark with hv | ⟨items, rfl, -⟩
  · exact hv
  · exact nomatch hi

theorem IsMarkOrWhole.of_mem_leaves {l : Value} (h : v.IsMarkOrWhole) (hl : l ∈ v.leaves) : l.IsMarkOrWhole := by
  induction v using sequence_induction with
  | leaf v hv =>
    rw [leaves_of_leaf hv, List.mem_singleton] at hl
    rwa [hl]
  | sequence v items hv ih =>
    rw [leaves_of_items? hv] at hl
    obtain ⟨x, hx, hl⟩ := List.mem_flatMap.1 hl
    exact ih x hx (h.of_mem_items hv hx) hl

theorem IsMarkedOnTop.of_mem_leaves {l : Value} (h : v.IsMarkedOnTop) (hi : v.items? = some items)
    (hl : l ∈ v.leaves) : l.IsMarkOrWhole := by
  rw [leaves_of_items? hi] at hl
  obtain ⟨x, hx, hl⟩ := List.mem_flatMap.1 hl
  exact (h.of_mem_items hi hx).of_mem_leaves hl

theorem IsMarkOrWhole.field (h : v.IsMarkOrWhole) (segment : Text) : (v.field segment).IsMarkOrWhole := by
  cases v with
  | mapping entries =>
    rw [Value.field, Entries.get]
    cases hget : Entries.get? entries (.text segment) with
    | none => exact isMarkOrWhole_undefined
    | some w =>
      obtain ⟨e, he, rfl⟩ := Entries.exists_mem_of_get?_eq_some hget
      exact h.of_mem_entries he
  | _ => exact isMarkOrWhole_undefined

theorem IsMarkOrWhole.of_mem_spread (h : v.IsMarkOrWhole) (hx : x ∈ v.spread) : x.IsMarkOrWhole := by
  cases hi : v.items? with
  | none =>
    rw [spread, hi, Option.getD_none, List.mem_singleton] at hx
    rwa [hx]
  | some items =>
    rw [spread, hi, Option.getD_some] at hx
    exact h.of_mem_items hi hx

/-- A segment makes a list of what it finds, or finds one value, so it puts no mark below the top. -/
theorem IsMarkedOnTop.branch (h : v.IsMarkedOnTop) (segment : Text) : (v.branch segment).IsMarkedOnTop := by
  cases hi : v.items? with
  | none =>
    rw [branch_of_leaf hi]
    exact ((h.of_leaf hi).field segment).isMarkedOnTop
  | some items =>
    rw [branch_of_items? hi]
    -- the items of the new list are fields, or items of fields, of leaves that hold no mark themselves
    refine fun _ => .inr ⟨_, rfl, fun x hx => ?_⟩
    obtain ⟨l, hl, hx⟩ := List.mem_flatMap.1 hx
    exact ((h.of_mem_leaves hi hl).field segment).of_mem_spread hx

theorem IsMarkedOnTop.along (h : v.IsMarkedOnTop) (path : List Text) : (v.along path).IsMarkedOnTop := by
  induction path generalizing v with
  | nil => exact h
  | cons segment path ih => exact ih (h.branch segment)

theorem rendered_of_leaf (h : v.items? = none) (hv : v ≠ .undefined) : v.rendered = v := by
  cases v with
  | undefined => exact absurd rfl hv
  | list _ => exact nomatch h
  | tuple _ => exact nomatch h
  | _ => rfl

theorem shownAs_rendered (v : Value) : v.ShownAs v.rendered := by
  induction v using sequence_induction with
  | leaf v hv =>
    by_cases hundefined : v = .undefined
    · rw [hundefined]
      exact .undefined
    · rw [rendered_of_leaf hv hundefined]
      exact .same hv hundefined
  | sequence v items hv ih =>
    rw [rendered_of_items? hv]
    exact .sequence hv (List.forall₂_map_right_iff.2 (List.forall₂_same.2 ih))

theorem IsMarkOrWhole.hasMark_rendered (h : v.IsMarkOrWhole) : v.rendered.hasMark = false := by
  induction v using sequence_induction with
  | leaf v hv =>
    by_cases hundefined : v = .undefined
    · rw [hundefined]
      rfl
    · rw [rendered_of_leaf hv hundefined, Bool.eq_false_iff]
      exact mt h hundefined
  | sequence v items hv ih =>
    rw [rendered_of_items? hv, Bool.eq_false_iff, Ne, hasMark_of_items? rfl]
    rintro ⟨_, hmem, hmark⟩
    obtain ⟨y, hy, rfl⟩ := List.mem_map.1 hmem
    exact Bool.noConfusion ((ih y hy (h.of_mem_items hv hy)).symm.trans hmark)

theorem IsMarkedOnTop.hasMark_rendered (h : v.IsMarkedOnTop) : v.rendered.hasMark = false := by
  cases hi : v.items? with
  | none => exact (h.of_leaf hi).hasMark_rendered
  | some items =>
    rw [rendered_of_items? hi, Bool.eq_false_iff, Ne, hasMark_of_items? rfl]
    rintro ⟨_, hmem, hmark⟩
    obtain ⟨y, hy, rfl⟩ := List.mem_map.1 hmem
    exact Bool.noConfusion ((h.of_mem_items hi hy).hasMark_rendered.symm.trans hmark)

theorem kind_eq_undefined_iff : v.kind = .undefined ↔ v = .undefined := by
  cases v <;> simp [kind]

end Value

/-- Paths through a record without marks put them on top only, as all of what they lead to or as items of a list. An
explanation shows what its paths lead to item by item and without any mark, and tells which of them lead to nothing. -/
theorem undefined_stays_on_top (record : Value) (h : record.hasMark = false) :
    (∀ limit path found, record.resolve limit path = .ok found → found.hasMark = true →
      found = .undefined ∨ ∃ items, found = .list items ∧ ∀ x ∈ items, x.hasMark = true → x = .undefined) ∧
    ∀ settings criteria e, (explain settings record criteria).outcome = .ok e → ∀ o ∈ e.outcomes,
      ∃ found, record.resolve settings.maxDepth o.path = .ok found ∧ found.ShownAs o.resolved ∧
        o.resolved.hasMark = false ∧ (o.isDefined = false ↔ found = .undefined) := by
  have hmarked {limit : Int} {path : Text} {found : Value} (hr : record.resolve limit path = .ok found) :
      found.IsMarkedOnTop := by
    have hrecord : record.IsMarkOrWhole := fun hmark => Bool.noConfusion (h.symm.trans hmark)
    rw [Value.resolve_eq hr]
    exact hrecord.isMarkedOnTop.along (segments path)
  refine ⟨fun limit path found hr => hmarked hr, fun settings criteria e he o ho => ?_⟩
  obtain ⟨cs, -, hreports⟩ := explain_eq_ok he
  obtain ⟨c, -, found, matched, hc, rfl⟩ := exists_reports_of_mem hreports ho
  have hr := (evaluate_eq_ok hc).1
  refine ⟨found, hr, found.shownAs_rendered, (hmarked hr).hasMark_rendered, ?_⟩
  show (found.kind != .undefined) = false ↔ found = .undefined
  rw [bne_eq_false_iff_eq, Value.kind_eq_undefined_iff]

/-- A path through items of which some have no such field, so that its list holds marks beside a list and a mapping. -/
theorem undefined_stays_on_top_among_items :
    let record : Value := .mapping [(.text "a", .tuple [.mapping [(.text "b", .tuple [.int 1, .list [.null]])],
      .list [.mapping [(.text "b", .mapping [(.text "c", .null)])], .int 2], .mapping []])]
    let criteria : Value := .mapping [(.text "a.b", .int 1), (.text "a.b.d.e", .null), (.text "c", .null)]
    record.hasMark = false ∧
      ((record.resolve 100 "a.b").toOption.map Value.hasMark = some true ∧
        ∃ found, record.resolve 100 "a.b" = .ok found ∧
          ∃ items, found = .list items ∧ ∀ x ∈ items, x.hasMark = true → x = .undefined) ∧
      ∃ e, (explain .default record criteria).outcome = .ok e ∧ e.eligible = true ∧
        e.outcomes.map Outcome.isDefined = [true, true, false] ∧ ∀ o ∈ e.outcomes, o.resolved.hasMark = false := by
  intro record criteria
  have hrecord : record.hasMark = false := by decide +kernel
  have hmark : (record.resolve 100 "a.b").toOption.map Value.hasMark = some true := by decide +kernel
  have hanswer : (explain .default record criteria).outcome.toOption.map
      (fun e => (e.eligible, e.outcomes.map Outcome.isDefined)) = some (true, [true, true, false]) := by
    decide +kernel
  obtain ⟨hpath, hshown⟩ := undefined_stays_on_top record hrecord
  obtain ⟨found, hfound⟩ : ∃ found, record.resolve 100 "a.b" = .ok found := exists_eq_ok (by decide +kernel)
  obtain ⟨e, he⟩ : ∃ e, (explain .default record criteria).outcome = .ok e := exists_eq_ok (by decide +kernel)
  have hitems : ∃ items, found = .list items ∧ ∀ x ∈ items, x.hasMark = true → x = .undefined := by
    have hlist : (record.resolve 100 "a.b").toOption.map Value.isSequence = some true := by decide +kernel
    rw [hfound] at hmark hlist
    rcases hpath 100 "a.b" found hfound (Option.some.inj hmark) with rfl | hitems
    · exact nomatch hlist
    · exact hitems
  rw [he] at hanswer
  obtain ⟨heligible, hdefined⟩ := Prod.mk.inj (Option.some.inj hanswer)
  refine ⟨hrecord, ⟨hmark, found, hfound, hitems⟩, e, he, heligible, hdefined, fun o ho => ?_⟩
  obtain ⟨-, -, -, hnone, -⟩ := hshown .default criteria e he o ho
  exact hnone

end Criteria
