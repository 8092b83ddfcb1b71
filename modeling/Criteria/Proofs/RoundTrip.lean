import Criteria.Proofs.Identity

namespace Criteria
open Json
variable {v w : Value}

theorem SameTree.exists_part {same : Value → Value → Prop} {key : Option Value} {x : Value} (h : SameTree same v w)
    (hp : Part w key x) : ∃ y, Part v key y ∧ SameTree same y x := by
  induction hp with
  | whole => exact ⟨v, .whole, h⟩
  | item _ hi hx ih =>
    obtain ⟨y, hy, hsame⟩ := ih
    cases hsame with
    | scalar _ hu => exact nomatch (Value.isObject_eq_false_iff.1 hu).2.symm.trans hi
    | list rows hrows =>
      cases hi
      obtain ⟨r, hr, rfl⟩ := List.mem_map.1 hx
      exact ⟨r.1, hy.item rfl (List.mem_map_of_mem hr), hrows r hr⟩
    | mapping => exact nomatch hi
  | entry _ he ih =>
    obtain ⟨y, hy, hsame⟩ := ih
    obtain ⟨es, rfl⟩ : ∃ es, y = .mapping es := by
      cases hsame with
      | scalar _ hu => exact nomatch hu
      | mapping => exact ⟨_, rfl⟩
    obtain ⟨e, he', hkey, hsame⟩ := hsame.exists_entry he
    exact ⟨e.2, hkey ▸ hy.entry he', hsame⟩

namespace Shape

theorem SuitsKey.of_sameTree {key : Value} (h : SuitsKey key v) (hvw : SameTree (· = ·) v w) : SuitsKey key w := by
  intro j hj
  obtain ⟨es, rfl, hes⟩ := h j hj
  obtain ⟨fs, rfl⟩ := hvw.eq_mapping
  refine ⟨fs, rfl, fun f hf => ?_⟩
  obtain ⟨e, he, hkey, -⟩ := hvw.exists_entry hf
  exact hkey ▸ hes e he

theorem InOrder.of_sameTree (h : InOrder v) (hvw : SameTree (· = ·) v w) : InOrder w := by
  intro key operand hp
  obtain ⟨y, hy, hsame⟩ := hvw.exists_part hp
  exact (h key y hy).of_sameTree hsame

/-- The order of entries does not matter to the shape of criteria. -/
theorem WellShaped.of_sameTree (h : WellShaped v) (hvw : SameTree (· = ·) v w) : WellShaped w := by
  obtain ⟨es, rfl, -⟩ := id h
  obtain ⟨fs, rfl⟩ := hvw.eq_mapping
  rw [wellShaped_mapping_iff] at h ⊢
  intro f hf
  obtain ⟨e, he, hkey, hef⟩ := hvw.exists_entry hf
  exact ⟨hkey ▸ (h e he).1, (h e he).2.of_sameTree hef⟩

end Shape

/-- A loaded document, written in canonical text into any file, is loaded again from there: the same values, numbers
and moments, in mappings whose entries may stand in another order. -/
theorem load_canonicalText (files : Files) (role : Role) (path : FilePath) (t : Value)
    (h : Document.load files role path true = .ok t) :
    ∃ text u, t.canonicalText = .ok text ∧ SameTree (· = ·) t u ∧
      ∀ (files' : Files) (role' : Role) (path' : FilePath), (role' = role ∨ role' = .record) →
        files' path' = .file text.toUTF8.toList → Document.load files' role' path' true = .ok u := by
  have hloaded := Document.loaded_of_load h
  obtain ⟨hmapping, hcheck⟩ := Document.load_eq_ok h
  obtain ⟨es, rfl⟩ := Value.isMapping_iff.1 hmapping
  obtain ⟨u, hdenote, hsame⟩ := hloaded.exists_denote
  have huloaded : Loaded true u :=
    (gives_read true _).ok u ((read_chars_self _ isPlain_compact (Value.mapping es).tree).trans hdenote)
  have humapping : u.isMapping = true := Value.isMapping_iff.2 hsame.eq_mapping
  refine ⟨_, u, canonicalText_eq hloaded, hsame, fun files' role' path' hrole hfile => ?_⟩
  refine load_chars hfile hdenote humapping fun hcriteria => ?_
  have hsource : role = .criteria := by
    rcases hrole with hrole | hrole
    · exact hrole.symm.trans hcriteria
    · exact Role.noConfusion (hrole.symm.trans hcriteria)
  have hshape := hloaded.check_eq_none_iff.1 (hcheck hsource)
  exact huloaded.check_eq_none_iff.2 (hshape.of_sameTree hsame)

/-- A record with a moment that has an offset, a number that is undefined and a letter beyond ASCII. -/
theorem load_canonicalText_moment :
    let record : String := "\x7b\"b\":[\x7b\"$date\":\"2024-01-31T12:00:00.5-01:30\"\x7d,NaN],\"a\":\"\u00e9\"\x7d"
    let files : Files := fun _ => .file record.toUTF8.toList
    let path : FilePath := ⟨[], [['r']]⟩
    ∃ t text u, Document.load files .record path true = .ok t ∧ t.canonicalText = .ok text ∧ SameTree (· = ·) t u ∧
      Document.load (fun _ => .file text.toUTF8.toList) .record path true = .ok u := by
  intro record files path
  obtain ⟨t, ht⟩ : ∃ t, Document.load files .record path true = .ok t := exists_eq_ok (by decide +kernel)
  obtain ⟨text, u, htext, hsame, hload⟩ := load_canonicalText files .record path t ht
  exact ⟨t, text, u, ht, htext, hsame, hload _ .record path (.inl rfl) rfl⟩

end Criteria
