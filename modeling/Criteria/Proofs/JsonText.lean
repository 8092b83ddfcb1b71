import Criteria.Proofs.NumberText
import Criteria.Proofs.Phrase
import Criteria.Proofs.StringText

namespace Criteria.Json
open Binary64 Decimal
variable {c : Char} {cs text rest blanks : List Char} {token : Token} {style : Style}

/-- A text that is one token in front of `rest`, and not one after which nothing more is read. -/
def IsToken (text : List Char) (token : Token) (rest : List Char) : Prop :=
  ∃ c cs, text = c :: cs ∧ isSpace c = false ∧ token.isLast = false ∧
    ∀ pos, scan pos c (cs ++ rest) = (token, cs.length)

theorem isToken_stringText (s : Text) (rest : List Char) :
    IsToken (stringText s) (.string (joinPairs s)) rest := by
  refine ⟨'\x22', s.flatMap pointText ++ ['\x22'], rfl, rfl, rfl, fun pos => ?_⟩
  rw [List.append_assoc, List.length_append]
  exact scanString_stringText pos s rest

def isMark (c : Char) : Bool := ['\x7b', '\x7d', '[', ']', ':', ',', '\x22'].contains c

theorem isToken_of_scan (c : Char) (cs : List Char) (hc : isMark c = false) (hs : isSpace c = false)
    (hlast : token.isLast = false)
    (h : (scanWord? (c :: (cs ++ rest))).or (scanNumber? (c :: (cs ++ rest))) = some (token, cs.length + 1)) :
    IsToken (c :: cs) token rest := by
  refine ⟨c, cs, rfl, hs, hlast, fun pos => ?_⟩
  simp only [isMark, List.contains_cons, List.contains_nil, Bool.or_eq_false_iff, Bool.or_false] at hc
  obtain ⟨h1, h2, h3, h4, h5, h6, h7⟩ := hc
  simp only [scan, h1, h2, h3, h4, h5, h6, h7, h, if_neg Bool.false_ne_true, Nat.add_sub_cancel]

theorem ne_of_isDigit {d : Char} (hc : c.isDigit = true) (hd : d.isDigit = false) : c ≠ d := by
  rintro rfl
  exact Bool.noConfusion (hc.symm.trans hd)

theorem scanWord?_eq_none (negative : Bool) (cs : List Char) (hc : c.isDigit = true) :
    scanWord? (signText negative ++ c :: cs) = none := by
  have h (d : Char) (hd : d.isDigit = false) : (d == c) = false := beq_eq_false_iff_ne.2 (ne_of_isDigit hc hd).symm
  cases negative <;>
    simp [scanWord?, words, signText, List.isPrefixOf, h 'n' rfl, h 't' rfl, h 'f' rfl, h 'N' rfl, h 'I' rfl, h '-' rfl]

theorem isToken_of_scanNumber? {negative : Bool} (hc : c.isDigit = true) (hlast : token.isLast = false)
    (h : scanNumber? (signText negative ++ (c :: cs ++ rest)) =
      some (token, (signText negative ++ c :: cs).length)) :
    IsToken (signText negative ++ c :: cs) token rest := by
  have hword := scanWord?_eq_none negative (cs ++ rest) hc
  cases negative with
  | true => exact isToken_of_scan _ _ rfl rfl hlast ((congrArg (Option.or · _) hword).trans h)
  | false =>
    have hne (d : Char) (hd : d.isDigit = false) : (c == d) = false := beq_eq_false_iff_ne.2 (ne_of_isDigit hc hd)
    have hmark : isMark c = false := by
      simp [isMark, ne_of_isDigit hc]
    have hspace : isSpace c = false := by
      simp [isSpace, ne_of_isDigit hc]
    exact isToken_of_scan _ _ hmark hspace hlast ((congrArg (Option.or · _) hword).trans h)

theorem FloatText.exists_digit {q : ℚ} (h : FloatText text q) : ∃ c cs, text = c :: cs ∧ c.isDigit = true := by
  have hwhole {whole more : List Char} (hw : IsWhole whole) : ∃ c cs, whole ++ more = c :: cs ∧ c.isDigit = true := by
    obtain ⟨c, cs, rfl⟩ := List.exists_cons_of_ne_nil hw.ne_nil
    exact ⟨c, cs ++ more, rfl, hw.digits c List.mem_cons_self⟩
  cases h with
  | fraction hw => exact hwhole hw
  | exponent hw => exact List.append_assoc _ _ _ ▸ hwhole hw

theorem isToken_float (x : Binary64) (hr : EndsNumber rest) :
    IsToken (x.format floatLayout).toList (.float x) rest := by
  cases x with
  | nan => exact isToken_of_scan 'N' ['a', 'N'] rfl rfl rfl rfl
  | infinity negative =>
    cases negative with
    | false => exact isToken_of_scan 'I' ['n', 'f', 'i', 'n', 'i', 't', 'y'] rfl rfl rfl rfl
    | true => exact isToken_of_scan '-' ['I', 'n', 'f', 'i', 'n', 'i', 't', 'y'] rfl rfl rfl rfl
  | finite negative m e hf =>
    obtain ⟨text, q, htext, heq, hscan⟩ := scanNumber?_format negative hf floatLayout hr
    obtain ⟨c, cs, rfl, hc⟩ := htext.exists_digit
    rw [heq]
    exact isToken_of_scanNumber? hc rfl hscan

theorem isToken_int (n : ℤ) (hr : EndsNumber rest) :
    IsToken (toString n).toList (.int (n < 0) (Nat.toDigits 10 n.natAbs)) rest := by
  have hscan := scanNumber?_toString n hr
  obtain ⟨c, cs, hdigits⟩ := List.exists_cons_of_ne_nil (Nat.toDigits_ne_nil (n := n.natAbs) (b := 10))
  have hc : c.isDigit = true := isDigit_of_mem_toDigits (hdigits ▸ List.mem_cons_self)
  rw [toList_toString]
  rw [hdigits] at hscan ⊢
  exact isToken_of_scanNumber? hc rfl hscan

structure Style.IsPlain (style : Style) : Prop where
  item : ∃ blanks, style.item = ',' :: blanks ∧ ∀ c ∈ blanks, isSpace c = true
  key : ∃ blanks, style.key = ':' :: blanks ∧ ∀ c ∈ blanks, isSpace c = true

theorem isPlain_compact : compact.IsPlain := ⟨⟨[], rfl, List.forall_mem_nil _⟩, ⟨[], rfl, List.forall_mem_nil _⟩⟩

theorem isPlain_indented : indented.IsPlain :=
  ⟨⟨[], rfl, List.forall_mem_nil _⟩, ⟨[' '], rfl, List.forall_mem_singleton.2 rfl⟩⟩

theorem isSpace_of_mem_break {level : ℕ} (h : c ∈ style.break level) : isSpace c = true := by
  unfold Style.break at h
  split at h
  · exact nomatch h
  · rcases List.mem_cons.1 h with rfl | h
    · rfl
    · rw [List.eq_of_mem_replicate h]
      rfl

theorem endsNumber_of_head (hd : c.isDigit = false) (hp : c ≠ '.') (he : c ≠ 'e') (he' : c ≠ 'E') :
    EndsNumber (c :: cs) where
  digit d h := by
    cases h
    exact hd
  point h := hp (Option.some.inj h)
  exponent := ⟨fun h => he (Option.some.inj h), fun h => he' (Option.some.inj h)⟩

theorem endsNumber_break {level : ℕ} (h : EndsNumber rest) : EndsNumber (style.break level ++ rest) := by
  unfold Style.break
  split
  · exact h
  · exact endsNumber_of_head (by decide) (by decide) (by decide) (by decide)

/-- The tokens of a text, wherever it starts. -/
def HasTokens (cs : List Char) (ts : List Token) : Prop := ∀ pos, (lexemesFrom pos cs).map Lexeme.token = ts

variable {ts : List Token}

theorem hasTokens_nil : HasTokens [] [] := by
  intro pos
  rw [lexemesFrom]
  rfl

theorem IsToken.hasTokens (h : IsToken text token rest) (hr : HasTokens rest ts) :
    HasTokens (text ++ rest) (token :: ts) := by
  obtain ⟨c, cs, rfl, hs, hlast, hscan⟩ := h
  intro pos
  rw [List.cons_append, lexemesFrom, hs, hscan]
  simp only [Bool.false_eq_true, if_false, hlast, List.drop_left, List.map_cons]
  rw [hr]

theorem HasTokens.afterBlanks (h : HasTokens rest ts) (hb : ∀ c ∈ blanks, isSpace c = true) :
    HasTokens (blanks ++ rest) ts := by
  induction blanks with
  | nil => exact h
  | cons b bs ih =>
    rw [List.forall_mem_cons] at hb
    intro pos
    rw [List.cons_append, lexemesFrom, if_pos hb.1]
    exact ih hb.2 (pos + 1)

theorem isToken_mark (hs : isSpace c = false) (hlast : token.isLast = false)
    (h : ∀ pos rest, scan pos c rest = (token, 0)) : IsToken [c] token rest :=
  ⟨c, [], rfl, hs, hlast, fun pos => h pos rest⟩

theorem HasTokens.mark (hr : HasTokens rest ts) (hs : isSpace c = false) (hlast : token.isLast = false)
    (h : ∀ pos rest, scan pos c rest = (token, 0)) : HasTokens (c :: rest) (token :: ts) :=
  (isToken_mark hs hlast h).hasTokens hr

/-- The token that a tree without members is. -/
def scalarToken? : Json → Option Token
  | .null => some .null
  | .bool b => some (.bool b)
  | .int n => some (.int (n < 0) (Nat.toDigits 10 n.natAbs))
  | .float x => some (.float x)
  | .string s => some (.string (joinPairs s))
  | .array _ => none
  | .object _ => none

theorem isToken_scalar {j : Json} (h : j.scalarToken? = some token) (level : ℕ) (hr : EndsNumber rest) :
    IsToken (j.chars style level) token rest := by
  cases j with
  | null =>
    cases h
    exact isToken_of_scan 'n' ['u', 'l', 'l'] rfl rfl rfl rfl
  | bool b =>
    cases h
    cases b with
    | true => exact isToken_of_scan 't' ['r', 'u', 'e'] rfl rfl rfl rfl
    | false => exact isToken_of_scan 'f' ['a', 'l', 's', 'e'] rfl rfl rfl rfl
  | int n =>
    cases h
    exact isToken_int n hr
  | float x =>
    cases h
    exact isToken_float x hr
  | string s =>
    cases h
    exact isToken_stringText s rest
  | array items => exact nomatch h
  | object members => exact nomatch h

theorem endsNumber_close (style : Style) (level : ℕ) (rest : List Char) (hc : c = ']' ∨ c = '\x7d') :
    EndsNumber (style.break level ++ c :: rest) := by
  refine endsNumber_break ?_
  rcases hc with rfl | rfl <;> exact endsNumber_of_head (by decide) (by decide) (by decide) (by decide)

theorem Style.IsPlain.endsNumber_item (hs : style.IsPlain) : EndsNumber (style.item ++ rest) := by
  obtain ⟨blanks, hitem, -⟩ := hs.item
  rw [hitem]
  exact endsNumber_of_head (by decide) (by decide) (by decide) (by decide)

theorem Style.IsPlain.endsNumber_itemChars (hs : style.IsPlain) (js : List Json) (level : ℕ) (hr : EndsNumber rest) :
    EndsNumber (itemChars style level js ++ rest) := by
  cases js with
  | nil => exact hr
  | cons j js =>
    simp only [itemChars, List.append_assoc]
    exact hs.endsNumber_item

theorem Style.IsPlain.endsNumber_memberChars (hs : style.IsPlain) (ms : List (Text × Json)) (level : ℕ)
    (hr : EndsNumber rest) : EndsNumber (memberChars style level ms ++ rest) := by
  cases ms with
  | nil => exact hr
  | cons m ms =>
    simp only [memberChars, List.append_assoc]
    exact hs.endsNumber_item

theorem HasTokens.separator (h : HasTokens rest ts) (hs : style.IsPlain) (level : ℕ) :
    HasTokens (style.item ++ (style.break level ++ rest)) (.comma :: ts) := by
  obtain ⟨blanks, hitem, hblanks⟩ := hs.item
  rw [hitem, List.cons_append]
  exact ((h.afterBlanks fun _ => isSpace_of_mem_break).afterBlanks hblanks).mark rfl rfl fun _ _ => rfl

theorem HasTokens.name (h : HasTokens rest ts) (hs : style.IsPlain) (key : Text) :
    HasTokens (stringText key ++ (style.key ++ rest)) (.string (joinPairs key) :: .colon :: ts) := by
  obtain ⟨blanks, hkey, hblanks⟩ := hs.key
  rw [hkey, List.cons_append]
  exact (isToken_stringText key _).hasTokens ((h.afterBlanks hblanks).mark rfl rfl fun _ _ => rfl)

mutual

def phrase : Json → Phrase
  | .null => .scalar .null
  | .bool b => .scalar (.bool b)
  | .int n => .scalar (.int (n < 0) (Nat.toDigits 10 n.natAbs))
  | .float x => .scalar (.float x)
  | .string s => .scalar (.string (joinPairs s))
  | .array items => .array (itemPhrases items)
  | .object members => .object (memberPhrases members)

def itemPhrases : List Json → List Phrase
  | [] => []
  | j :: js => phrase j :: itemPhrases js

def memberPhrases : List (Text × Json) → List (Text × Phrase)
  | [] => []
  | (k, j) :: ms => (joinPairs k, phrase j) :: memberPhrases ms

end

mutual

/-- The text of a tree has the tokens of the tree. -/
theorem hasTokens_chars (hs : style.IsPlain) (j : Json) (level : ℕ) {rest : List Char} {ts : List Token}
    (hr : EndsNumber rest) (h : HasTokens rest ts) :
    HasTokens (j.chars style level ++ rest) (j.phrase.tokens ++ ts) := by
  match j with
  | .null => exact (isToken_scalar rfl level hr).hasTokens h
  | .bool b => exact (isToken_scalar rfl level hr).hasTokens h
  | .int n => exact (isToken_scalar rfl level hr).hasTokens h
  | .float x => exact (isToken_scalar rfl level hr).hasTokens h
  | .string s => exact (isToken_scalar rfl level hr).hasTokens h
  | .array [] =>
    have hclose : HasTokens (']' :: rest) (.closeArray :: ts) := h.mark rfl rfl fun _ _ => rfl
    exact hclose.mark rfl rfl fun _ _ => rfl
  | .array (j :: js) =>
    have hclose : HasTokens (']' :: rest) (.closeArray :: ts) := h.mark rfl rfl fun _ _ => rfl
    have hend := endsNumber_close style level rest (.inl rfl)
    have hothers := hasTokens_itemChars hs js (level + 1) hend (hclose.afterBlanks fun _ => isSpace_of_mem_break)
    have hfirst := hasTokens_chars hs j (level + 1) (hs.endsNumber_itemChars js (level + 1) hend) hothers
    simp only [chars, phrase, itemPhrases, Phrase.tokens, List.cons_append, List.append_assoc, List.nil_append]
    exact (hfirst.afterBlanks fun _ => isSpace_of_mem_break).mark rfl rfl fun _ _ => rfl
  | .object [] =>
    have hclose : HasTokens ('\x7d' :: rest) (.closeObject :: ts) := h.mark rfl rfl fun _ _ => rfl
    exact hclose.mark rfl rfl fun _ _ => rfl
  | .object ((k, j) :: ms) =>
    have hclose : HasTokens ('\x7d' :: rest) (.closeObject :: ts) := h.mark rfl rfl fun _ _ => rfl
    have hend := endsNumber_close style level rest (.inr rfl)
    have hothers := hasTokens_memberChars hs ms (level + 1) hend (hclose.afterBlanks fun _ => isSpace_of_mem_break)
    have hfirst := hasTokens_chars hs j (level + 1) (hs.endsNumber_memberChars ms (level + 1) hend) hothers
    simp only [chars, phrase, memberPhrases, Phrase.tokens, List.cons_append, List.append_assoc, List.nil_append]
    exact ((hfirst.name hs k).afterBlanks fun _ => isSpace_of_mem_break).mark rfl rfl fun _ _ => rfl

theorem hasTokens_itemChars (hs : style.IsPlain) (js : List Json) (level : ℕ) {rest : List Char} {ts : List Token}
    (hr : EndsNumber rest) (h : HasTokens rest ts) :
    HasTokens (itemChars style level js ++ rest) (Phrase.itemTokens (itemPhrases js) ++ ts) := by
  match js with
  | [] => exact h
  | j :: js =>
    have hothers := hasTokens_itemChars hs js level hr h
    have hitem := hasTokens_chars hs j level (hs.endsNumber_itemChars js level hr) hothers
    simp only [itemChars, itemPhrases, Phrase.itemTokens, List.cons_append, List.append_assoc]
    exact hitem.separator hs level

theorem hasTokens_memberChars (hs : style.IsPlain) (ms : List (Text × Json)) (level : ℕ) {rest : List Char}
    {ts : List Token} (hr : EndsNumber rest) (h : HasTokens rest ts) :
    HasTokens (memberChars style level ms ++ rest) (Phrase.memberTokens (memberPhrases ms) ++ ts) := by
  match ms with
  | [] => exact h
  | (k, j) :: ms =>
    have hothers := hasTokens_memberChars hs ms level hr h
    have hmember := hasTokens_chars hs j level (hs.endsNumber_memberChars ms level hr) hothers
    simp only [memberChars, memberPhrases, Phrase.memberTokens, List.cons_append, List.append_assoc]
    exact (hmember.name hs k).separator hs level

end

section
variable {ε : Type} (close : List (Value × Value) → Except ε Value)

mutual

/-- The value of a tree, put together from the inside. -/
def denote : Json → Except (ReadFault ε) Value
  | .null => .ok .null
  | .bool b => .ok (.bool b)
  | .int n => integer (n < 0) (Nat.toDigits 10 n.natAbs)
  | .float x => .ok (.number (.float x))
  | .string s => .ok (.text (joinPairs s))
  | .array items => (denoteItems items).map .list
  | .object members => denoteMembers members >>= fun es => (close (Entries.ofPairs es)).mapError .rejected

def denoteItems : List Json → Except (ReadFault ε) (List Value)
  | [] => .ok []
  | j :: js => do
    let v ← denote j
    let vs ← denoteItems js
    return v :: vs

def denoteMembers : List (Text × Json) → Except (ReadFault ε) (List (Value × Value))
  | [] => .ok []
  | (k, j) :: ms => do
    let v ← denote j
    let es ← denoteMembers ms
    return (.text (joinPairs k), v) :: es

end

mutual

@[simp] theorem denote_phrase (j : Json) : j.phrase.denote close = j.denote close := by
  match j with
  | .null => rfl
  | .bool b => rfl
  | .int n => rfl
  | .float x => rfl
  | .string s => rfl
  | .array js => simp [phrase, Phrase.denote, denote, denoteItems_itemPhrases]
  | .object ms => simp [phrase, Phrase.denote, denote, denoteMembers_memberPhrases]

@[simp] theorem denoteItems_itemPhrases (js : List Json) :
    Phrase.denoteItems close (itemPhrases js) = denoteItems close js := by
  match js with
  | [] => rfl
  | j :: js => rw [itemPhrases, Phrase.denoteItems, denoteItems, denote_phrase j, denoteItems_itemPhrases js]

@[simp] theorem denoteMembers_memberPhrases (ms : List (Text × Json)) :
    Phrase.denoteMembers close (memberPhrases ms) = denoteMembers close ms := by
  match ms with
  | [] => rfl
  | (k, j) :: ms =>
    rw [memberPhrases, Phrase.denoteMembers, denoteMembers, denote_phrase j, denoteMembers_memberPhrases ms]

end

theorem endsNumber_blanks (hb : ∀ c ∈ blanks, isSpace c = true) : EndsNumber blanks := by
  cases blanks with
  | nil => exact ⟨fun _ h => (nomatch h), fun h => (nomatch h), fun h => (nomatch h), fun h => (nomatch h)⟩
  | cons c cs =>
    have hc := hb c List.mem_cons_self
    simp only [isSpace, Bool.or_eq_true, beq_iff_eq] at hc
    rcases hc with ((rfl | rfl) | rfl) | rfl <;>
      exact endsNumber_of_head (by decide) (by decide) (by decide) (by decide)

theorem endsNumber_nil : EndsNumber [] := endsNumber_blanks fun _ h => nomatch h

/-- What is read of the text of a tree, with blanks behind it, is the tree. -/
theorem read_chars (hs : style.IsPlain) (j : Json) (hb : ∀ c ∈ blanks, isSpace c = true) :
    read close (j.chars style 0 ++ blanks) = j.denote close := by
  have hblanks : HasTokens blanks [] := List.append_nil blanks ▸ hasTokens_nil.afterBlanks hb
  have htokens := hasTokens_chars hs j 0 (endsNumber_blanks hb) hblanks 0
  rw [List.append_nil] at htokens
  rw [Phrase.read_eq_denote close htokens, denote_phrase]

theorem read_chars_self (hs : style.IsPlain) (j : Json) : read close (j.chars style 0) = j.denote close := by
  have hnone : ∀ c ∈ ([] : List Char), isSpace c = true := fun _ hc => nomatch hc
  have h := read_chars close hs j hnone
  rwa [List.append_nil] at h

end

end Criteria.Json
