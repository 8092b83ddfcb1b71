import Criteria.Proofs.Ascii
import Criteria.Proofs.JsonText
import Criteria.Proofs.Reading

namespace Criteria
open Json Decimal
variable {c : Char} {cs ds : List Char}

/-- Texts of printable ASCII characters. -/
def IsPrintable (cs : List Char) : Prop := ∀ c ∈ cs, 0x20 ≤ c.toNat ∧ c.toNat < 0x7f

instance (cs : List Char) : Decidable (IsPrintable cs) :=
  List.decidableBAll (fun c : Char => 0x20 ≤ c.toNat ∧ c.toNat < 0x7f) cs

theorem IsPrintable.append (hc : IsPrintable cs) (hd : IsPrintable ds) : IsPrintable (cs ++ ds) :=
  fun c h => (List.mem_append.1 h).elim (hc c) (hd c)

theorem IsPrintable.cons (hc : 0x20 ≤ c.toNat ∧ c.toNat < 0x7f) (h : IsPrintable cs) : IsPrintable (c :: cs) :=
  List.forall_mem_cons.2 ⟨hc, h⟩

theorem isPrintable_nil : IsPrintable [] := fun _ h => nomatch h

theorem isPrintable_digits (h : ∀ c ∈ ds, c.isDigit = true) : IsPrintable ds := fun c hc => by
  have := toNat_of_isDigit (h c hc)
  omega

theorem isPrintable_sign (negative : Bool) : IsPrintable (signText negative) := by
  cases negative
  · exact isPrintable_nil
  · exact isPrintable_nil.cons (by decide)

theorem isPrintable_hexDigits {n : ℕ} (h : n < 0x10000) : IsPrintable (Text.hexDigits 4 n) := by
  have hdigit {d : ℕ} (hd : d < 16) : 0x20 ≤ (Nat.digitChar d).toNat ∧ (Nat.digitChar d).toNat < 0x7f :=
    (by decide : ∀ d < 16, 0x20 ≤ (Nat.digitChar d).toNat ∧ (Nat.digitChar d).toNat < 0x7f) d hd
  rw [hexDigits_four h]
  exact (((isPrintable_nil.cons (hdigit (by omega))).cons (hdigit (by omega))).cons (hdigit (by omega))).cons
    (hdigit (by omega))

theorem isPrintable_unitEscape {n : ℕ} (h : n < 0x10000) : IsPrintable (unitEscape n) :=
  ((isPrintable_hexDigits h).cons (by decide)).cons (by decide)

theorem isPrintable_charText (c : Char) : IsPrintable (charText c) := by
  have hescape {d : Char} (hd : 0x20 ≤ d.toNat ∧ d.toNat < 0x7f) : IsPrintable ['\\', d] :=
    (isPrintable_nil.cons hd).cons (by decide)
  unfold charText
  split_ifs with hquote _ _ _ _ _ hplain
  · simp only [Bool.or_eq_true, beq_iff_eq] at hquote
    rcases hquote with rfl | rfl <;> exact hescape (by decide)
  · exact hescape (by decide)
  · exact hescape (by decide)
  · exact hescape (by decide)
  · exact hescape (by decide)
  · exact hescape (by decide)
  · simp only [Bool.and_eq_true, decide_eq_true_eq] at hplain
    exact isPrintable_nil.cons hplain
  · unfold unitEscapes
    by_cases hn : c.toNat < 0x10000
    · simp only [if_pos hn]
      exact isPrintable_unitEscape hn
    · simp only [if_neg hn]
      have hvalid : c.toNat < 0xd800 ∨ 0xdfff < c.toNat ∧ c.toNat < 0x110000 := c.valid
      exact (isPrintable_unitEscape (by omega)).append (isPrintable_unitEscape (by omega))

theorem isPrintable_pointText (p : CodePoint) : IsPrintable (pointText p) := by
  cases p with
  | char c => exact isPrintable_charText c
  | surrogate u => exact isPrintable_unitEscape (by simp only [CodePoint.toNat]; omega)

theorem isPrintable_stringText (s : Text) : IsPrintable (stringText s) := by
  refine ((IsPrintable.append ?_ (isPrintable_nil.cons (by decide))).cons (by decide))
  intro d hd
  obtain ⟨p, -, hd⟩ := List.mem_flatMap.1 hd
  exact isPrintable_pointText p d hd

theorem isPrintable_floatText {q : ℚ} (h : FloatText cs q) : IsPrintable cs := by
  have hfraction {ds : List Char} (hd : ∀ c ∈ ds, c.isDigit = true) : IsPrintable (fractionText ds) := by
    unfold fractionText
    split
    · exact isPrintable_nil
    · exact (isPrintable_digits hd).cons (by decide)
  cases h with
  | fraction hw hf => exact (isPrintable_digits hw.digits).append (hfraction hf)
  | exponent hw hf below hd =>
    refine ((isPrintable_digits hw.digits).append (hfraction hf)).append (((isPrintable_digits hd).cons ?_).cons
      (by decide))
    cases below <;> decide

theorem isPrintable_float (x : Binary64) : IsPrintable (x.format floatLayout).toList := by
  cases x with
  | nan => exact (by decide : IsPrintable ['N', 'a', 'N'])
  | infinity negative =>
    cases negative with
    | false => exact (by decide : IsPrintable ['I', 'n', 'f', 'i', 'n', 'i', 't', 'y'])
    | true => exact (by decide : IsPrintable ['-', 'I', 'n', 'f', 'i', 'n', 'i', 't', 'y'])
  | finite negative m e hf =>
    obtain ⟨text, q, htext, heq, -⟩ := scanNumber?_format negative hf floatLayout endsNumber_nil
    rw [heq]
    exact (isPrintable_sign negative).append (isPrintable_floatText htext)

/-- A property of all printable characters and of those that a style has between them. -/
structure Json.Style.Keeps (style : Style) (P : Char → Prop) : Prop where
  printable : ∀ cs, IsPrintable cs → ∀ c ∈ cs, P c
  item : ∀ c ∈ style.item, P c
  key : ∀ c ∈ style.key, P c
  newLine : ∀ level, ∀ c ∈ style.break level, P c

section
variable {P : Char → Prop} {style : Style}

mutual

/-- The text of a tree has printable characters and those of its style. -/
theorem forall_mem_chars (h : style.Keeps P) (level : ℕ) : ∀ j : Json, ∀ c ∈ j.chars style level, P c
  | .null => h.printable _ (by decide : IsPrintable ['n', 'u', 'l', 'l'])
  | .bool true => h.printable _ (by decide : IsPrintable ['t', 'r', 'u', 'e'])
  | .bool false => h.printable _ (by decide : IsPrintable ['f', 'a', 'l', 's', 'e'])
  | .int n => by
    show ∀ c ∈ (toString n).toList, P c
    rw [toList_toString]
    exact h.printable _ ((isPrintable_sign _).append (isPrintable_digits fun _ => isDigit_of_mem_toDigits))
  | .float x => h.printable _ (isPrintable_float x)
  | .string s => h.printable _ (isPrintable_stringText s)
  | .array [] => h.printable _ (by decide : IsPrintable ['[', ']'])
  | .array (j :: js) => by
    simp only [chars, List.forall_mem_append, List.forall_mem_cons]
    exact ⟨⟨⟨⟨⟨h.printable ['['] (by decide) _ (by simp), h.newLine _⟩, forall_mem_chars h (level + 1) j⟩,
      forall_mem_itemChars h (level + 1) js⟩, h.newLine _⟩, h.printable [']'] (by decide) _ (by simp),
      fun _ hc => nomatch hc⟩
  | .object [] => h.printable _ (by decide : IsPrintable ['\x7b', '\x7d'])
  | .object ((k, j) :: ms) => by
    simp only [chars, List.forall_mem_append, List.forall_mem_cons]
    exact ⟨⟨⟨⟨⟨⟨⟨h.printable ['\x7b'] (by decide) _ (by simp), h.newLine _⟩,
      h.printable _ (isPrintable_stringText k)⟩, h.key⟩,
      forall_mem_chars h (level + 1) j⟩, forall_mem_memberChars h (level + 1) ms⟩, h.newLine _⟩,
      h.printable ['\x7d'] (by decide) _ (by simp), fun _ hc => nomatch hc⟩

theorem forall_mem_itemChars (h : style.Keeps P) (level : ℕ) :
    ∀ js : List Json, ∀ c ∈ itemChars style level js, P c
  | [] => fun _ hc => nomatch hc
  | j :: js => by
    simp only [itemChars, List.forall_mem_append]
    exact ⟨⟨⟨h.item, h.newLine _⟩, forall_mem_chars h level j⟩, forall_mem_itemChars h level js⟩

theorem forall_mem_memberChars (h : style.Keeps P) (level : ℕ) :
    ∀ ms : List (Text × Json), ∀ c ∈ memberChars style level ms, P c
  | [] => fun _ hc => nomatch hc
  | (k, j) :: ms => by
    simp only [memberChars, List.forall_mem_append]
    exact ⟨⟨⟨⟨⟨h.item, h.newLine _⟩, h.printable _ (isPrintable_stringText k)⟩, h.key⟩,
      forall_mem_chars h level j⟩, forall_mem_memberChars h level ms⟩

end

end

theorem isAscii_of_isPrintable (h : IsPrintable cs) : IsAscii cs := fun c hc => by
  have := h c hc
  omega

theorem Json.keeps_compact : compact.Keeps fun c => 0x20 ≤ c.toNat ∧ c.toNat < 0x7f where
  printable _ h := h
  item := (by decide : IsPrintable [','])
  key := (by decide : IsPrintable [':'])
  newLine _ := List.forall_mem_nil _

theorem Json.keeps_indented : indented.Keeps fun c => c.toNat < 0x80 where
  printable _ h := isAscii_of_isPrintable h
  item := (by decide : IsAscii [','])
  key := (by decide : IsAscii [':', ' '])
  newLine level c hc := by
    rcases List.mem_cons.1 hc with rfl | hc
    · decide
    · rw [List.eq_of_mem_replicate hc]
      decide

theorem isPrintable_chars (level : ℕ) (j : Json) : IsPrintable (j.chars compact level) :=
  forall_mem_chars keeps_compact level j

theorem isAscii_chars_indented (level : ℕ) (j : Json) : IsAscii (j.chars indented level) :=
  forall_mem_chars keeps_indented level j

theorem decode_printable {role : Role} {path : Text} {dates : Bool} (h : IsPrintable cs) :
    Document.decode role path dates (String.ofList cs).toUTF8.toList = (do
      let v ← Document.parse role path dates cs
      if v.isMapping then return v
      else throw (.refusal (.documentNotMapping role path v.typeName))) := by
  have hreturn : '\r' ∉ cs := fun hr => absurd (h '\r' hr).1 (by decide)
  rw [Document.decode, toUTF8_ascii (isAscii_of_isPrintable h), decodeUtf8_ascii (isAscii_of_isPrintable h)]
  show (Document.parse role path dates (unifyLineEnds cs) >>= _) = _
  rw [unifyLineEnds_eq_self hreturn]

/-- A file with the text of a tree is loaded as the value of the tree, if that is a mapping and of the right shape. -/
theorem load_chars {files : Files} {role : Role} {path : FilePath} {dates : Bool} {j : Json} {v : Value}
    (hfile : files path = .file (String.ofList (j.chars compact 0)).toUTF8.toList)
    (h : j.denote (Document.closing dates) = .ok v) (hv : v.isMapping = true)
    (hshape : role = .criteria → Shape.check v = .ok none) : Document.load files role path dates = .ok v := by
  have hdecode : Document.decode role path.text dates (String.ofList (j.chars compact 0)).toUTF8.toList = .ok v := by
    rw [decode_printable (isPrintable_chars 0 j), Document.parse, read_chars_self _ isPlain_compact, h]
    show (if v.isMapping then pure v else _) = _
    rw [hv]
    rfl
  rw [Document.load, hfile]
  show (Document.decode role path.text dates _ >>= _) = _
  rw [hdecode]
  cases role with
  | record => rfl
  | criteria =>
    show Document.checkShape path.text v = .ok v
    rw [Document.checkShape, hshape rfl]
    rfl

end Criteria
