import Mathlib.Data.List.Basic

namespace Criteria
variable {ε ε' α β : Type} {r : Except ε α} {e : ε} {x : α} {y : β}

theorem bind_eq_ok {g : α → Except ε β} (h : r >>= g = .ok y) : ∃ x, r = .ok x ∧ g x = .ok y := by
  cases r with
  | error e => exact nomatch h
  | ok x => exact ⟨x, rfl, h⟩

theorem bind_eq_error {g : α → Except ε β} (h : r >>= g = .error e) :
    r = .error e ∨ ∃ x, r = .ok x ∧ g x = .error e := by
  cases r with
  | error e' => exact .inl (congrArg _ (Except.error.inj h))
  | ok x => exact .inr ⟨x, rfl, h⟩

theorem map_eq_ok {g : α → β} (h : r.map g = .ok y) : ∃ x, r = .ok x ∧ g x = y := by
  cases r with
  | error e => exact nomatch h
  | ok x => exact ⟨x, rfl, Except.ok.inj h⟩

theorem map_eq_error {g : α → β} (h : r.map g = .error e) : r = .error e := by
  cases r with
  | error e' => exact congrArg _ (Except.error.inj h)
  | ok x => exact nomatch h

theorem mapError_eq_ok {g : ε → ε'} (h : r.mapError g = .ok x) : r = .ok x := by
  cases r with
  | error e => exact nomatch h
  | ok x' => exact congrArg _ (Except.ok.inj h)

theorem mapError_eq_error {g : ε → ε'} {e' : ε'} (h : r.mapError g = .error e') : ∃ e, r = .error e ∧ g e = e' := by
  cases r with
  | error e => exact ⟨e, rfl, Except.error.inj h⟩
  | ok x => exact nomatch h

theorem exists_eq_ok (h : r.toOption.isSome = true) : ∃ x, r = .ok x := by
  cases r with
  | error e => exact nomatch h
  | ok x => exact ⟨x, rfl⟩

theorem exists_mapM {P : β → Prop} {g : α → Except ε β} {xs : List α} (h : ∀ x ∈ xs, ∃ y, g x = .ok y ∧ P y) :
    ∃ ys, xs.mapM g = .ok ys ∧ ∀ y ∈ ys, P y := by
  induction xs with
  | nil => exact ⟨[], rfl, fun _ hy => nomatch hy⟩
  | cons x xs ih =>
    rw [List.forall_mem_cons] at h
    obtain ⟨y, hy, hP⟩ := h.1
    obtain ⟨ys, hys, hall⟩ := ih h.2
    refine ⟨y :: ys, ?_, List.forall_mem_cons.2 ⟨hP, hall⟩⟩
    rw [List.mapM_cons, hy, hys]
    rfl

theorem exists_eq_ok_of_mapM {g : α → Except ε β} {xs : List α} {ys : List β} (h : xs.mapM g = .ok ys) :
    ∀ x ∈ xs, ∃ y, g x = .ok y := by
  induction xs generalizing ys with
  | nil => exact fun _ hx => nomatch hx
  | cons x xs ih =>
    rw [List.mapM_cons] at h
    obtain ⟨y, hy, h⟩ := bind_eq_ok h
    obtain ⟨zs, hzs, -⟩ := bind_eq_ok h
    exact List.forall_mem_cons.2 ⟨⟨y, hy⟩, ih hzs⟩

theorem exists_of_mem_mapM {g : α → Except ε β} {xs : List α} {ys : List β} (h : xs.mapM g = .ok ys) (hy : y ∈ ys) :
    ∃ x ∈ xs, g x = .ok y := by
  induction xs generalizing ys with
  | nil =>
    cases h
    exact nomatch hy
  | cons x xs ih =>
    rw [List.mapM_cons] at h
    obtain ⟨z, hz, h⟩ := bind_eq_ok h
    obtain ⟨zs, hzs, h⟩ := bind_eq_ok h
    cases h
    rcases List.mem_cons.1 hy with rfl | hy
    · exact ⟨x, List.mem_cons_self, hz⟩
    · obtain ⟨x', hx', hg⟩ := ih hzs hy
      exact ⟨x', List.mem_cons_of_mem _ hx', hg⟩

theorem mapM_cons_eq_error_iff {g : α → Except ε β} {xs : List α} :
    (x :: xs).mapM g = .error e ↔ g x = .error e ∨ (∃ y, g x = .ok y) ∧ xs.mapM g = .error e := by
  rw [List.mapM_cons]
  cases g x with
  | error e' => simp [bind, Except.bind]
  | ok y =>
    cases xs.mapM g with
    | error e' => simp [bind, Except.bind]
    | ok ys => simp [bind, Except.bind, pure, Except.pure]

theorem mapM_eq_error {g : α → Except ε β} {xs : List α} (h : xs.mapM g = .error e) :
    ∃ x ∈ xs, g x = .error e := by
  induction xs with
  | nil => exact nomatch h
  | cons x xs ih =>
    rw [List.mapM_cons] at h
    rcases bind_eq_error h with hx | ⟨y, -, h⟩
    · exact ⟨x, List.mem_cons_self, hx⟩
    · rcases bind_eq_error h with hs | ⟨ys, -, h⟩
      · obtain ⟨z, hz, hg⟩ := ih hs
        exact ⟨z, List.mem_cons_of_mem _ hz, hg⟩
      · exact nomatch h

end Criteria
