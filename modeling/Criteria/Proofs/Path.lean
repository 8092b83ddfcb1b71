import Criteria.Proofs.Leaves
import Criteria.Proofs.Steps
import Criteria.Resolution

namespace Criteria

theorem Text.splitOn_eq {α : Type} [DecidableEq α] (sep : α) (cs : List α) : splitOn sep cs = cs.splitOn sep := by
  induction cs with
  | nil => rfl
  | cons c cs ih =>
    rw [splitOn, ih, List.splitOn_cons_eq_if_modifyHead]
    by_cases hc : c = sep
    · rw [if_pos hc, if_pos (beq_iff_eq.2 hc)]
    · rw [if_neg hc, if_neg (mt beq_iff_eq.1 hc)]
      cases h : cs.splitOn sep with
      | nil => exact absurd (ih.trans h) (splitOn_ne_nil sep cs)
      | cons piece pieces => rfl

theorem segments_join {path : List Text} (hne : path ≠ []) (hdot : ∀ t ∈ path, .char '.' ∉ t) :
    segments (Text.join "." path) = path := by
  rw [segments, Text.splitOn_eq]
  exact List.splitOn_intercalate (.char '.') hdot hne

namespace Value
variable {limit : Int} {segment : Text} {depth : Nat} {v found : Value}
  {r : Refusal}

def field (segment : Text) : Value → Value
  | mapping entries => Entries.get entries (.text segment)
  | _ => undefined

/-- One segment, looked up in all leaves of a sequence or in the value itself. -/
def branch (v : Value) (segment : Text) : Value :=
  if v.isSequence then list (v.leaves.flatMap fun l => (l.field segment).spread)
  else v.field segment

def along (v : Value) (path : List Text) : Value := path.foldl branch v

theorem field_of_not_mapping (h : v.isMapping = false) : v.field segment = undefined := by
  cases v <;> first | rfl | exact nomatch h

theorem branch_of_items? {items : List Value} (h : v.items? = some items) :
    v.branch segment = list (v.leaves.flatMap fun l => (l.field segment).spread) := by
  rw [branch, if_pos (isSequence_of_items? h)]

theorem branch_of_leaf (h : v.items? = none) : v.branch segment = v.field segment := by
  rw [branch, isSequence_eq_false_iff.2 h, if_neg Bool.false_ne_true]

@[simp] theorem spread_branch (v : Value) (segment : Text) :
    (v.branch segment).spread = v.leaves.flatMap fun l => (l.field segment).spread := by
  cases h : v.items? with
  | none => simp [branch_of_leaf h, h]
  | some items => rw [branch_of_items? h]; rfl

@[simp] theorem flatMap_leaves_spread (v : Value) : v.spread.flatMap leaves = v.leaves := by
  cases h : v.items? with
  | none => simp [spread, h]
  | some items => rw [spread, h, leaves_of_items? h]; rfl

@[simp] theorem leaves_branch (v : Value) (segment : Text) :
    (v.branch segment).leaves = v.leaves.flatMap fun l => (l.field segment).leaves := by
  rw [← flatMap_leaves_spread]
  simp [List.flatMap_assoc]

theorem descend_of_items? {items : List Value} (h : v.items? = some items) (hd : (depth : Int) ≤ limit) :
    descend limit segment depth v =
      (descendItems limit segment (depth + 1) items).map list := by
  have hn : ¬limit < (depth : Int) := by omega
  cases v with
  | list _ => cases h; rw [descend, if_neg hn]
  | tuple _ => cases h; rw [descend, if_neg hn]
  | _ => exact nomatch h

theorem descend_of_leaf (h : v.items? = none) (hd : (depth : Int) ≤ limit) :
    descend limit segment depth v = .ok (v.field segment) := by
  have : ¬limit < (depth : Int) := by omega
  cases v <;> simp_all [items?, descend, field]

theorem descend_of_lt (hd : limit < (depth : Int)) :
    descend limit segment depth v = .error (.segmentTooDeep segment limit) := by
  cases v <;> simp [descend, hd]

theorem descendItems_eq {items founds : List Value}
    (hx : ∀ x ∈ items, ∀ found, descend limit segment depth x = .ok found → found = x.branch segment)
    (h : descendItems limit segment depth items = .ok founds) :
    founds = items.flatMap fun x => (x.branch segment).spread := by
  induction items generalizing founds with
  | nil =>
    rw [descendItems] at h
    cases h
    rfl
  | cons x xs ih =>
    rw [List.forall_mem_cons] at hx
    rw [descendItems] at h
    obtain ⟨found, hd, h⟩ := bind_eq_ok h
    obtain ⟨others, ho, h⟩ := bind_eq_ok h
    rw [← Except.ok.inj h, hx.1 found hd, ih hx.2 ho, List.flatMap_cons]

theorem descend_eq (h : descend limit segment depth v = .ok found) : found = v.branch segment := by
  induction v using sequence_induction generalizing depth found with
  | leaf v hv =>
    by_cases hd : (depth : Int) ≤ limit
    · rw [descend_of_leaf hv hd] at h
      rw [branch_of_leaf hv]
      exact (Except.ok.inj h).symm
    · rw [descend_of_lt (by omega)] at h
      exact nomatch h
  | sequence v items hv ih =>
    by_cases hd : (depth : Int) ≤ limit
    · rw [descend_of_items? hv hd] at h
      obtain ⟨founds, hi, hl⟩ := map_eq_ok h
      -- what an item adds is what its own leaves add, be it a sequence or not
      have hf := descendItems_eq (fun x hx found h => ih x hx h) hi
      rw [branch_of_items? hv, leaves_of_items? hv, List.flatMap_assoc, ← hl, hf]
      exact congrArg list (List.flatMap_congr fun x _ => spread_branch x segment)
    · rw [descend_of_lt (by omega)] at h
      exact nomatch h

theorem descendItems_eq_error {items : List Value}
    (hx : ∀ x ∈ items, descend limit segment depth x = .error r → r = .segmentTooDeep segment limit)
    (h : descendItems limit segment depth items = .error r) : r = .segmentTooDeep segment limit := by
  induction items with
  | nil => exact nomatch h
  | cons x xs ih =>
    rw [List.forall_mem_cons] at hx
    rw [descendItems] at h
    rcases bind_eq_error h with hd | ⟨found, -, h⟩
    · exact hx.1 hd
    · rcases bind_eq_error h with hs | ⟨others, -, h⟩
      · exact ih hx.2 hs
      · exact nomatch h

theorem descend_eq_error (h : descend limit segment depth v = .error r) :
    r = .segmentTooDeep segment limit := by
  induction v using sequence_induction generalizing depth with
  | leaf v hv =>
    by_cases hd : (depth : Int) ≤ limit
    · rw [descend_of_leaf hv hd] at h
      exact nomatch h
    · rw [descend_of_lt (by omega)] at h
      exact (Except.error.inj h).symm
  | sequence v items hv ih =>
    by_cases hd : (depth : Int) ≤ limit
    · rw [descend_of_items? hv hd] at h
      exact descendItems_eq_error (fun x hx => ih x hx) (map_eq_error h)
    · rw [descend_of_lt (by omega)] at h
      exact (Except.error.inj h).symm

theorem follow_eq {path : List Text} (h : v.follow limit path = .ok found) :
    found = v.along path := by
  unfold follow at h
  induction path generalizing v with
  | nil => exact (Except.ok.inj h).symm
  | cons segment path ih =>
    rw [List.foldlM_cons] at h
    obtain ⟨next, hd, h⟩ := bind_eq_ok h
    rw [ih h, descend_eq hd]
    rfl

theorem follow_eq_error {path : List Text} (h : v.follow limit path = .error r) :
    ∃ segment ∈ path, r = .segmentTooDeep segment limit := by
  unfold follow at h
  induction path generalizing v with
  | nil => exact nomatch h
  | cons segment path ih =>
    rw [List.foldlM_cons] at h
    rcases bind_eq_error h with hd | ⟨next, -, h⟩
    · exact ⟨segment, List.mem_cons_self, descend_eq_error hd⟩
    · obtain ⟨t, ht, hr⟩ := ih h
      exact ⟨t, List.mem_cons_of_mem _ ht, hr⟩

/-- What a path leads to within a limit is what it leads to. -/
theorem resolve_eq {path : Text} (h : v.resolve limit path = .ok found) :
    found = v.along (segments path) := follow_eq h

/-- A path leads nowhere only if it passes through too many sequences within each other. -/
theorem resolve_eq_error {path : Text} (h : v.resolve limit path = .error r) :
    ∃ segment ∈ segments path, r = .segmentTooDeep segment limit := follow_eq_error h

theorem along_cons_of_leaf (h : v.items? = none) (path : List Text) :
    v.along (segment :: path) = (v.field segment).along path := by
  rw [along, List.foldl_cons, branch_of_leaf h, along]

theorem leaves_along (v : Value) (path : List Text) :
    (v.along path).leaves = v.leaves.flatMap fun l => (l.along path).leaves := by
  induction path generalizing v with
  | nil => exact (leaves_flatMap_leaves v).symm
  | cons segment path ih =>
    calc
      (v.along (segment :: path)).leaves
        = (v.branch segment).leaves.flatMap fun m => (m.along path).leaves := ih _
      _ = v.leaves.flatMap fun l => (l.field segment).leaves.flatMap fun m => (m.along path).leaves := by
        simp [List.flatMap_assoc]
      _ = v.leaves.flatMap fun l => (l.along (segment :: path)).leaves := by
        -- from a leaf the first segment leads to the field itself
        apply List.flatMap_congr
        intro l hl
        rw [← ih, along_cons_of_leaf (items?_of_mem_leaves hl)]

end Value
end Criteria
