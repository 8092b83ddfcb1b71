namespace Criteria

/-- A Unicode code point. Texts from outside may hold surrogates that are half of no pair. -/
inductive CodePoint where
  | char (c : Char)
  | surrogate (u : Fin 0x800)
deriving DecidableEq, Repr

namespace CodePoint

def toNat : CodePoint → Nat
  | char c => c.toNat
  | surrogate u => 0xd800 + u.val

def char? : CodePoint → Option Char
  | char c => some c
  | surrogate _ => none

def isSurrogate : CodePoint → Bool
  | char _ => false
  | surrogate _ => true

/-- The code point that a UTF-16 unit is when it stands alone. -/
def ofUnit (n : Nat) : CodePoint :=
  if h : 0xd800 ≤ n ∧ n < 0xe000 then surrogate ⟨n - 0xd800, by omega⟩ else char (Char.ofNat n)

instance : Ord CodePoint := ⟨fun a b => compare a.toNat b.toNat⟩

instance : Coe Char CodePoint := ⟨char⟩

theorem toNat_injective {a b : CodePoint} (h : a.toNat = b.toNat) : a = b := by
  cases a with
  | char c =>
    cases b with
    | char d => exact congrArg char (Char.toNat_inj.1 h)
    | surrogate u =>
      have hvalid : c.toNat < 0xd800 ∨ 0xdfff < c.toNat ∧ c.toNat < 0x110000 := c.valid
      simp only [toNat] at h
      omega
  | surrogate u =>
    cases b with
    | char d =>
      have hvalid : d.toNat < 0xd800 ∨ 0xdfff < d.toNat ∧ d.toNat < 0x110000 := d.valid
      simp only [toNat] at h
      omega
    | surrogate w => exact congrArg surrogate (Fin.ext (Nat.add_left_cancel h))

instance : Std.TransOrd CodePoint := inferInstanceAs (Std.TransCmp (compareOn toNat))

instance : Std.LawfulEqOrd CodePoint where
  eq_of_compare h := toNat_injective (Nat.compare_eq_eq.1 h)

end CodePoint

abbrev Text := List CodePoint

namespace Text

def ofChars (cs : List Char) : Text := cs.map .char

@[coe] def ofString (s : String) : Text := ofChars s.toList

instance : Coe String Text := ⟨ofString⟩

/-- The characters of a text without surrogates. -/
def chars? (s : Text) : Option (List Char) := s.mapM CodePoint.char?

/-- The text as a stream shows it that writes surrogates by number. -/
def escaped (s : Text) : String :=
  String.ofList <| s.flatMap fun
    | .char c => [c]
    | p => '\\' :: 'u' :: Nat.toDigits 16 p.toNat

def join (sep : Text) (parts : List Text) : Text := sep.intercalate parts

@[simp] theorem join_singleton (sep s : Text) : join sep [s] = s := List.intercalate_singleton

@[simp] theorem ofChars_nil : ofChars [] = [] := rfl

@[simp] theorem ofChars_cons (c : Char) (cs : List Char) : ofChars (c :: cs) = .char c :: ofChars cs := rfl

@[simp] theorem ofChars_append (cs ds : List Char) : ofChars (cs ++ ds) = ofChars cs ++ ofChars ds :=
  List.map_append

@[simp] theorem ofString_append (s t : String) : ofString (s ++ t) = ofString s ++ ofString t := by
  simp [ofString]

@[simp] theorem ofString_ofList (cs : List Char) : ofString (String.ofList cs) = ofChars cs := by
  simp [ofString]

@[simp] theorem ofChars_inj {cs ds : List Char} : ofChars cs = ofChars ds ↔ cs = ds :=
  List.map_inj_right fun _ _ h => CodePoint.char.inj h

@[simp] theorem ofString_inj {s t : String} : ofString s = ofString t ↔ s = t := by
  simp [ofString, String.toList_inj]

@[simp] theorem char_mem_ofChars {c : Char} {cs : List Char} : .char c ∈ ofChars cs ↔ c ∈ cs := by
  simp [ofChars]

@[simp] theorem surrogate_not_mem_ofChars {u : Fin 0x800} {cs : List Char} : .surrogate u ∉ ofChars cs := by
  simp [ofChars]

@[simp] theorem chars?_ofChars (cs : List Char) : chars? (ofChars cs) = some cs := by
  induction cs with
  | nil => rfl
  | cons c cs ih =>
    unfold chars? at ih ⊢
    rw [ofChars_cons, List.mapM_cons, ih]
    rfl

@[simp] theorem chars?_ofString (s : String) : chars? (ofString s) = some s.toList := chars?_ofChars _

theorem chars?_eq_some_iff {s : Text} {cs : List Char} : chars? s = some cs ↔ s = ofChars cs := by
  refine ⟨fun h => ?_, fun h => h ▸ chars?_ofChars cs⟩
  induction s generalizing cs with
  | nil => cases h; rfl
  | cons p s ih =>
    unfold chars? at ih h
    rw [List.mapM_cons] at h
    cases p with
    | surrogate u => exact nomatch h
    | char c =>
      cases hs : s.mapM CodePoint.char? with
      | none => rw [hs] at h; exact nomatch h
      | some ds =>
        rw [hs] at h
        cases h
        simp [ih hs]

end Text
end Criteria
