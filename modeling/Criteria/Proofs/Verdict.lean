import Criteria.Matching

namespace Criteria

/-- The fault of a condition that nests beyond the limit. -/
def tooDeep (settings : Settings) : Fault := .refusal (.conditionTooDeep settings.maxDepth)

theorem withinDepth_eq (settings : Settings) (depth : Int) (r : Verdict) :
    withinDepth settings depth r = .error (tooDeep settings) ∨ withinDepth settings depth r = r := by
  unfold withinDepth
  split
  · exact .inl rfl
  · exact .inr rfl

theorem withinDepth_of_lt {settings : Settings} {depth : Int} (h : settings.maxDepth < depth)
    (r : Verdict) : withinDepth settings depth r = .error (tooDeep settings) := if_pos h

@[simp] theorem withinDepth_of_le {settings : Settings} {depth : Int} (h : depth ≤ settings.maxDepth) (r : Verdict) :
    withinDepth settings depth r = r := if_neg (Int.not_lt.2 h)

namespace Verdict

@[simp] theorem or_eq_true {r s : Verdict} :
    r.or s = .ok true ↔ r = .ok true ∨ r = .ok false ∧ s = .ok true := by
  rcases r with f | _ | _ <;> simp [or]

@[simp] theorem or_eq_false {r s : Verdict} : r.or s = .ok false ↔ r = .ok false ∧ s = .ok false := by
  rcases r with f | _ | _ <;> simp [or]

@[simp] theorem or_eq_error {r s : Verdict} {f : Fault} :
    r.or s = .error f ↔ r = .error f ∨ r = .ok false ∧ s = .error f := by
  rcases r with g | _ | _ <;> simp [or]

@[simp] theorem and_eq_true {r s : Verdict} : r.and s = .ok true ↔ r = .ok true ∧ s = .ok true := by
  rcases r with f | _ | _ <;> simp [and]

@[simp] theorem and_eq_false {r s : Verdict} :
    r.and s = .ok false ↔ r = .ok false ∨ r = .ok true ∧ s = .ok false := by
  rcases r with f | _ | _ <;> simp [and]

@[simp] theorem and_eq_error {r s : Verdict} {f : Fault} :
    r.and s = .error f ↔ r = .error f ∨ r = .ok true ∧ s = .error f := by
  rcases r with g | _ | _ <;> simp [and]

@[simp] theorem and_true (r : Verdict) : r.and (.ok true) = r := by
  rcases r with f | _ | _ <;> rfl

@[simp] theorem or_false (r : Verdict) : r.or (.ok false) = r := by
  rcases r with f | _ | _ <;> rfl

@[simp] def any : List Verdict → Verdict
  | [] => .ok false
  | r :: rs => r.or (any rs)

@[simp] def all : List Verdict → Verdict
  | [] => .ok true
  | r :: rs => r.and (all rs)

/-- What several verdicts come to under a junction. -/
def joined : Junction → List Verdict → Verdict
  | .all, rs => all rs
  | .any, rs => any rs

/-- A verdict is whether the proposition holds; where there is none, the fault is one of the given. -/
structure Tells (r : Verdict) (P : Prop) (E : Fault → Prop) : Prop where
  truth : ∀ b, r = .ok b → (b = true ↔ P)
  faults : ∀ f, r = .error f → E f

/-- Where there is a verdict, it is whether the proposition holds. -/
abbrev Decides (r : Verdict) (P : Prop) : Prop := r.Tells P fun _ => True

namespace Tells
variable {r s : Verdict} {P Q : Prop} {E : Fault → Prop}

theorem of_true (h : r.Tells P E) (hr : r = .ok true) : P := (h.truth _ hr).1 rfl

theorem of_false (h : r.Tells P E) (hr : r = .ok false) : ¬P :=
  fun p => Bool.noConfusion ((h.truth _ hr).2 p)

theorem congr (h : r.Tells P E) (hPQ : P ↔ Q) : r.Tells Q E :=
  ⟨fun b hb => (h.truth b hb).trans hPQ, h.faults⟩

theorem ok {b : Bool} (h : b = true ↔ P) : Tells (.ok b) P E := by
  constructor
  · intro b' hb
    rw [← Except.ok.inj hb]
    exact h
  · intro f hf
    exact nomatch hf

theorem error {f : Fault} (h : E f) : Tells (.error f) P E := by
  constructor
  · intro b hb
    exact nomatch hb
  · intro g hg
    rw [← Except.error.inj hg]
    exact h

theorem of_faults (h : ∀ f, r = .error f → E f) : r.Tells (r = .ok true) E :=
  ⟨fun b hb => by simp [hb], h⟩

theorem decides (h : r.Tells P E) : r.Decides P := ⟨h.truth, fun _ _ => trivial⟩

theorem withinDepth {settings : Settings} {depth : Int} (hE : E (tooDeep settings))
    (h : r.Tells P E) : (withinDepth settings depth r).Tells P E := by
  rcases withinDepth_eq settings depth r with hr | hr <;> rw [hr]
  · exact error hE
  · exact h

theorem or (hr : r.Tells P E) (hs : s.Tells Q E) : (r.or s).Tells (P ∨ Q) E := by
  constructor
  · intro b hb
    cases b with
    | true =>
      rcases or_eq_true.1 hb with h | ⟨-, h⟩
      · simp [hr.of_true h]
      · simp [hs.of_true h]
    | false =>
      obtain ⟨h, h'⟩ := or_eq_false.1 hb
      simp [hr.of_false h, hs.of_false h']
  · intro f hf
    rcases or_eq_error.1 hf with h | ⟨-, h⟩
    · exact hr.faults f h
    · exact hs.faults f h

theorem and (hr : r.Tells P E) (hs : s.Tells Q E) : (r.and s).Tells (P ∧ Q) E := by
  constructor
  · intro b hb
    cases b with
    | true =>
      obtain ⟨h, h'⟩ := and_eq_true.1 hb
      simp [hr.of_true h, hs.of_true h']
    | false =>
      rcases and_eq_false.1 hb with h | ⟨-, h⟩
      · simp [hr.of_false h]
      · simp [hs.of_false h]
  · intro f hf
    rcases and_eq_error.1 hf with h | ⟨-, h⟩
    · exact hr.faults f h
    · exact hs.faults f h

section Searches
variable {α : Type} {f : α → Verdict} {p : α → Prop} {xs : List α}

theorem any (h : ∀ x ∈ xs, (f x).Tells (p x) E) : (Verdict.any (xs.map f)).Tells (∃ x ∈ xs, p x) E := by
  induction xs with
  | nil => exact .ok (by simp)
  | cons x xs ih =>
    rw [List.forall_mem_cons] at h
    exact (h.1.or (ih h.2)).congr (by simp)

theorem all (h : ∀ x ∈ xs, (f x).Tells (p x) E) : (Verdict.all (xs.map f)).Tells (∀ x ∈ xs, p x) E := by
  induction xs with
  | nil => exact .ok (by simp)
  | cons x xs ih =>
    rw [List.forall_mem_cons] at h
    exact (h.1.and (ih h.2)).congr (by simp)

end Searches
end Tells
end Verdict
end Criteria
