import Criteria.Proofs.Path

namespace Criteria
namespace Value
variable {limit : Int} {segment : Text} {depth : Nat} {v found : Value} {items : List Value}
  {path : List Text} {r : Refusal}

/-- A node of a value that lies inside so many of its sequences: the value itself inside none, and what is
in an item inside one more than there. Mappings are not entered. -/
inductive Encloses : Value → Nat → Value → Prop where
  | self {v : Value} : Encloses v 0 v
  | item {v x y : Value} {items : List Value} {n : Nat} :
    v.items? = some items → x ∈ items → Encloses x n y → Encloses v (n + 1) y

/-- Some node lies inside more sequences than a limit allows. -/
def Exceeds (limit : Int) (v : Value) : Prop := ∃ n y, v.Encloses n y ∧ limit < n

theorem exceeds_of_neg (h : limit < 0) : v.Exceeds limit := ⟨0, v, .self, h⟩

theorem exceeds_of_leaf (h : v.items? = none) : v.Exceeds limit ↔ limit < 0 := by
  constructor
  · intro ⟨n, y, he, hn⟩
    cases he with
    | self => exact hn
    | item hi =>
      rw [h] at hi
      exact nomatch hi
  · exact exceeds_of_neg

theorem exceeds_of_items? (h : v.items? = some items) :
    v.Exceeds limit ↔ limit < 0 ∨ ∃ x ∈ items, x.Exceeds (limit - 1) := by
  constructor
  · intro ⟨n, y, he, hn⟩
    cases he with
    | self => exact .inl hn
    | @item _ x _ _ n hi hx hy =>
      rw [h] at hi
      cases hi
      exact .inr ⟨x, hx, n, y, hy, by omega⟩
  · rintro (hneg | ⟨x, hx, n, y, hy, hn⟩)
    · exact exceeds_of_neg hneg
    · exact ⟨n + 1, y, .item h hx hy, by omega⟩

theorem exists_descendItems_eq_error :
    (∃ r, descendItems limit segment depth items = .error r) ↔
      ∃ x ∈ items, ∃ r, descend limit segment depth x = .error r := by
  induction items with
  | nil => simp [descendItems]
  | cons x xs ih =>
    rw [List.exists_mem_cons_iff, ← ih, descendItems]
    constructor
    · rintro ⟨r, h⟩
      rcases bind_eq_error h with hx | ⟨found, -, h⟩
      · exact .inl ⟨r, hx⟩
      · rcases bind_eq_error h with hs | ⟨others, -, h⟩
        · exact .inr ⟨r, hs⟩
        · cases h
    · rintro (⟨r, hx⟩ | ⟨r, hs⟩)
      · exact ⟨r, by rw [hx]; rfl⟩
      · rw [hs]
        cases hx : descend limit segment depth x with
        | error r => exact ⟨r, rfl⟩
        | ok found => exact ⟨r, rfl⟩

theorem exists_descend_eq_error :
    (∃ r, descend limit segment depth v = .error r) ↔ v.Exceeds (limit - depth) := by
  induction v using sequence_induction generalizing depth with
  | leaf v hv =>
    rw [exceeds_of_leaf hv]
    by_cases hd : (depth : Int) ≤ limit
    · have hok : ¬limit - depth < 0 := by omega
      simp [descend_of_leaf hv hd, hok]
    · have herr : limit - depth < 0 := by omega
      simp [descend_of_lt (Int.not_le.1 hd), herr]
  | sequence v items hv ih =>
    rw [exceeds_of_items? hv]
    by_cases hd : (depth : Int) ≤ limit
    · have hok : ¬limit - depth < 0 := by omega
      have hitems : (∃ r, descendItems limit segment (depth + 1) items = .error r) ↔
          ∃ x ∈ items, x.Exceeds (limit - depth - 1) := by
        rw [exists_descendItems_eq_error]
        refine exists_congr fun x => and_congr_right fun hx => ?_
        rw [ih x hx, Int.natCast_succ, ← Int.sub_sub]
      rw [descend_of_items? hv hd, ← hitems]
      cases descendItems limit segment (depth + 1) items <;> simp [Except.map, hok]
    · have herr : limit - depth < 0 := by omega
      simp [descend_of_lt (Int.not_le.1 hd), herr]

theorem exceeds_iff (segment : Text) :
    v.Exceeds limit ↔ ∃ r, descend limit segment 0 v = .error r := by
  rw [exists_descend_eq_error, Int.natCast_zero, Int.sub_zero]

theorem descend_eq_error_iff :
    descend limit segment 0 v = .error r ↔ v.Exceeds limit ∧ r = .segmentTooDeep segment limit := by
  rw [exceeds_iff segment]
  constructor
  · intro h
    exact ⟨⟨r, h⟩, descend_eq_error h⟩
  · rintro ⟨⟨r', h⟩, rfl⟩
    rw [h, descend_eq_error h]

theorem descend_eq_ok_iff :
    descend limit segment 0 v = .ok found ↔ ¬v.Exceeds limit ∧ found = v.branch segment := by
  rw [exceeds_iff segment]
  cases h : descend limit segment 0 v with
  | error r => simp
  | ok w => simp [descend_eq h, eq_comm]

/-- No segment of a path goes too deep where the segments before it lead. -/
def Fits (limit : Int) (v : Value) (path : List Text) : Prop :=
  ∀ before segment after, path = before ++ segment :: after → ¬(v.along before).Exceeds limit

theorem fits_nil : v.Fits limit [] := by
  intro before segment after h
  cases before <;> exact nomatch h

@[simp] theorem fits_cons :
    v.Fits limit (segment :: path) ↔ ¬v.Exceeds limit ∧ (v.branch segment).Fits limit path := by
  constructor
  · intro h
    exact ⟨h [] segment path rfl, fun before t after hp => h (segment :: before) t after (by rw [hp]; rfl)⟩
  · intro ⟨hv, hpath⟩ before t after hp
    rcases List.cons_eq_append_iff.1 hp with ⟨rfl, -⟩ | ⟨rest, rfl, hrest⟩
    · exact hv
    · exact hpath rest t after hrest

@[simp] theorem follow_cons :
    v.follow limit (segment :: path) =
      descend limit segment 0 v >>= fun w => w.follow limit path := List.foldlM_cons

@[simp] theorem follow_append {path' : List Text} :
    v.follow limit (path ++ path') = v.follow limit path >>= fun w => w.follow limit path' :=
  List.foldlM_append

theorem follow_eq_ok_iff :
    v.follow limit path = .ok found ↔ v.Fits limit path ∧ found = v.along path := by
  induction path generalizing v with
  | nil =>
    constructor
    · intro h
      exact ⟨fits_nil, follow_eq h⟩
    · rintro ⟨-, rfl⟩
      rfl
  | cons segment path ih =>
    rw [follow_cons, fits_cons]
    constructor
    · intro h
      obtain ⟨w, hw, h⟩ := bind_eq_ok h
      obtain ⟨hv, rfl⟩ := descend_eq_ok_iff.1 hw
      obtain ⟨hfits, hfound⟩ := ih.1 h
      exact ⟨⟨hv, hfits⟩, hfound⟩
    · intro ⟨⟨hv, hfits⟩, hfound⟩
      rw [descend_eq_ok_iff.2 ⟨hv, rfl⟩]
      exact ih.2 ⟨hfits, hfound⟩

theorem follow_eq_error_iff :
    v.follow limit path = .error r ↔
      ∃ before segment after, path = before ++ segment :: after ∧ v.Fits limit before ∧
        (v.along before).Exceeds limit ∧ r = .segmentTooDeep segment limit := by
  constructor
  · intro h
    induction path generalizing v with
    | nil => exact nomatch h
    | cons segment path ih =>
      rw [follow_cons] at h
      rcases bind_eq_error h with hd | ⟨w, hw, h⟩
      · obtain ⟨hv, hr⟩ := descend_eq_error_iff.1 hd
        exact ⟨[], segment, path, rfl, fits_nil, hv, hr⟩
      · obtain ⟨hv, rfl⟩ := descend_eq_ok_iff.1 hw
        obtain ⟨before, t, after, rfl, hfits, hdeep, hr⟩ := ih h
        exact ⟨segment :: before, t, after, rfl, fits_cons.2 ⟨hv, hfits⟩, hdeep, hr⟩
  · rintro ⟨before, segment, after, rfl, hfits, hdeep, hr⟩
    rw [follow_append, follow_eq_ok_iff.2 ⟨hfits, rfl⟩]
    show (v.along before).follow limit (segment :: after) = .error r
    rw [follow_cons, descend_eq_error_iff.2 ⟨hdeep, hr⟩]
    rfl

/-- A segment leads to the field of that name in a value or in all leaves of a sequence, and a path from
segment to segment. Each goes too deep where a node lies inside more sequences than the limit allows, and
nowhere else. -/
theorem resolve_iff_along (limit : Int) (v : Value) :
    (∀ segment,
      (∀ found, descend limit segment 0 v = .ok found ↔
        ¬v.Exceeds limit ∧ found = v.branch segment) ∧
      ∀ r, descend limit segment 0 v = .error r ↔
        v.Exceeds limit ∧ r = .segmentTooDeep segment limit) ∧
    ∀ path,
      (∀ found, v.resolve limit path = .ok found ↔
        v.Fits limit (segments path) ∧ found = v.along (segments path)) ∧
      ∀ r, v.resolve limit path = .error r ↔
        ∃ before segment after, segments path = before ++ segment :: after ∧ v.Fits limit before ∧
          (v.along before).Exceeds limit ∧ r = .segmentTooDeep segment limit := by
  refine ⟨fun segment => ⟨fun found => ?_, fun r => ?_⟩, fun path => ⟨fun found => ?_, fun r => ?_⟩⟩
  · exact descend_eq_ok_iff
  · exact descend_eq_error_iff
  · exact follow_eq_ok_iff
  · exact follow_eq_error_iff

/-- All sequences above a leaf go, and of what stands under the name the outermost one goes. -/
example :
    let record : Value := .list [.tuple [.mapping [(.text "a", .int 1)], .null],
      .mapping [(.text "a", .list [.int 2, .list [.int 3]])]]
    record.resolve 2 "a" = .ok (.list [.int 1, .undefined, .int 2, .list [.int 3]]) ∧
      record.resolve 1 "a" = .error (.segmentTooDeep "a" 1) := ⟨rfl, rfl⟩

end Value

theorem segments_append_dot (p q : Text) : segments (p ++ "." ++ q) = segments p ++ segments q := by
  have happend : p ++ "." ++ q = p ++ .char '.' :: q := by
    rw [List.append_assoc]
    rfl
  rw [segments, segments, segments, happend, Text.splitOn_eq, Text.splitOn_eq, Text.splitOn_eq,
    List.splitOn_append_cons_self]

@[simp] theorem join_segments (p : Text) : Text.join "." (segments p) = p := by
  rw [segments, Text.splitOn_eq]
  exact List.intercalate_splitOn (CodePoint.char '.')

theorem not_mem_of_mem_segments {p segment : Text} (h : segment ∈ segments p) : .char '.' ∉ segment :=
  Text.not_mem_of_mem_splitOn h

/-- A path leads where the part behind one of its dots leads from where the part before it leads. Its segments
are those of the two parts, and what they are joined to is the path again. -/
theorem resolve_append_dot (limit : Int) (v : Value) (p q : Text) :
    (v.resolve limit (p ++ "." ++ q) = v.resolve limit p >>= fun found => found.resolve limit q) ∧
    segments (p ++ "." ++ q) = segments p ++ segments q ∧
    Text.join "." (segments p) = p ∧ ∀ segment ∈ segments p, CodePoint.char '.' ∉ segment := by
  refine ⟨?_, segments_append_dot p q, join_segments p, fun segment => not_mem_of_mem_segments⟩
  rw [Value.resolve, segments_append_dot, Value.follow_append]
  rfl

/-- A path with an empty segment, through an empty name and the items of a list. -/
theorem resolve_append_dot_through_list :
    let items : Value := .list [.mapping [(.text "b", .int 1)], .tuple [.mapping [(.text "b", .list [.int 2, .null])]]]
    let record : Value := .mapping [(.text "a", .mapping [(.text "", items)])]
    ("" : Text) ∈ segments "a." ∧ CodePoint.char '.' ∉ ("" : Text) ∧ record.resolve 2 "a." = .ok items ∧
      record.resolve 2 ("a." ++ "." ++ "b") = .ok (.list [.int 1, .int 2, .null]) := by
  intro items record
  obtain ⟨hresolve, -, -, hdot⟩ := resolve_append_dot 2 record "a." "b"
  have hmem : ("" : Text) ∈ segments "a." := by decide
  have hbefore : record.resolve 2 "a." = .ok items := rfl
  refine ⟨hmem, hdot "" hmem, hbefore, ?_⟩
  have hbehind : items.resolve 2 "b" = .ok (.list [.int 1, .int 2, .null]) := rfl
  rw [hbefore] at hresolve
  exact hresolve.trans hbehind

end Criteria
