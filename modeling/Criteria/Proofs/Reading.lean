import Criteria.Document
import Criteria.Proofs.Loaded

namespace Criteria
open Json
variable {dates : Bool} {v : Value} {pos : ℕ} {cs : List Char}

namespace Json

/-- The digits of an integer are digits, and there are some; a string has no halves of a pair side by side. -/
def Token.IsSound : Token → Prop
  | .int _ digits => digits ≠ [] ∧ ∀ c ∈ digits, c.isDigit = true
  | .string s => IsJoined s
  | _ => True

theorem isDigit_of_mem_wholeDigits {c : Char} (h : c ∈ wholeDigits cs) : c.isDigit = true := by
  unfold wholeDigits at h
  split at h
  · rw [List.mem_singleton.1 h]
    rfl
  · exact List.mem_takeWhile_imp h

theorem isSound_of_scanNumber? {token : Token} {n : ℕ} (h : scanNumber? cs = some (token, n)) : token.IsSound := by
  unfold scanNumber? at h
  simp only at h
  generalize (if (cs.head? == some '-') = true then cs.drop 1 else cs) = body at h
  generalize (if (cs.head? == some '-') = true then 1 else 0) = signLength at h
  by_cases hwhole : (wholeDigits body).isEmpty = true
  · rw [if_pos hwhole] at h
    exact nomatch h
  · rw [if_neg hwhole] at h
    generalize exponentPart? _ = exponent at h
    cases exponent with
    | some e =>
      cases h
      trivial
    | none =>
      by_cases hfraction : (fractionDigits (body.drop (wholeDigits body).length)).isEmpty = true
      · simp only [if_pos hfraction] at h
        cases h
        exact ⟨fun h0 => hwhole (List.isEmpty_iff.2 h0), fun c => isDigit_of_mem_wholeDigits⟩
      · simp only [if_neg hfraction] at h
        cases h
        trivial

theorem isSound_of_scanWord? {token : Token} {n : ℕ} (h : scanWord? cs = some (token, n)) : token.IsSound := by
  obtain ⟨w, hw, hn⟩ := Option.map_eq_some_iff.1 h
  cases hn
  have hall : ∀ w ∈ words, w.2.IsSound := by
    simp [words, Token.IsSound]
  exact hall w (List.mem_of_find?_eq_some hw)

theorem isSound_scan (pos : ℕ) (c : Char) (cs : List Char) : (scan pos c cs).1.IsSound := by
  unfold scan
  split_ifs <;> try trivial
  · unfold scanString
    split
    · trivial
    · exact isJoined_joinPairs _
  · split
    · next token length h =>
      rcases Option.or_eq_some_iff.1 h with h | ⟨-, h⟩
      · exact isSound_of_scanWord? h
      · exact isSound_of_scanNumber? h
    · trivial

theorem isSound_of_mem_lexemesFrom {l : Lexeme} (h : l ∈ lexemesFrom pos cs) : l.token.IsSound := by
  induction pos, cs using lexemesFrom.induct with
  | case1 pos => simp [lexemesFrom] at h
  | case2 pos c cs hs ih =>
    rw [lexemesFrom, if_pos hs] at h
    exact ih h
  | case3 pos c cs hs token n hscan ih =>
    rw [lexemesFrom, if_neg hs, hscan] at h
    rcases List.mem_cons.1 h with rfl | h
    · have hsound := isSound_scan pos c cs
      rwa [hscan] at hsound
    · by_cases hlast : token.isLast = true
      · rw [if_pos hlast] at h
        exact nomatch h
      · rw [if_neg hlast] at h
        exact ih h

/-- What the values and faults of a computation are known to be. -/
structure Gives {α : Type} (P : α → Prop) (r : Except (ReadFault Fault) α) : Prop where
  ok : ∀ x, r = .ok x → P x
  rejected : ∀ f, r = .error (.rejected f) → ∃ refusal, f = .refusal refusal

section
variable {α β : Type} {P : α → Prop} {Q : β → Prop} {r : Except (ReadFault Fault) α}

theorem gives_ok {x : α} (h : P x) : Gives P (.ok x) where
  ok _ hy := Except.ok.inj hy ▸ h
  rejected _ hf := nomatch hf

theorem gives_malformed (problem : Problem) (position : ℕ) : Gives P (.error (.malformed problem position)) where
  ok _ hy := nomatch hy
  rejected _ hf := nomatch hf

theorem gives_refusal (refusal : Refusal) : Gives P (.error (.rejected (.refusal refusal))) where
  ok _ hy := nomatch hy
  rejected _ hf := ⟨refusal, (ReadFault.rejected.inj (Except.error.inj hf)).symm⟩

theorem Gives.map {g : α → β} (h : Gives P r) (hg : ∀ x, P x → Q (g x)) : Gives Q (r.map g) where
  ok y hy := by
    obtain ⟨x, hx, rfl⟩ := map_eq_ok hy
    exact hg x (h.ok x hx)
  rejected f hf := h.rejected f (map_eq_error hf)

end

/-- Pairs of a text and a loaded value each. -/
def LoadedPairs (dates : Bool) (pairs : List (Value × Value)) : Prop :=
  ∃ ms, pairs = Entries.ofTexts ms ∧ ∀ m ∈ ms, IsJoined m.1 ∧ Loaded dates m.2

theorem LoadedPairs.cons {pairs : List (Value × Value)} {key : Text} (h : LoadedPairs dates pairs)
    (hkey : IsJoined key) (hv : Loaded dates v) : LoadedPairs dates ((.text key, v) :: pairs) := by
  obtain ⟨ms, rfl, hms⟩ := h
  exact ⟨(key, v) :: ms, rfl, List.forall_mem_cons.2 ⟨⟨hkey, hv⟩, hms⟩⟩

def Frame.IsLoaded (dates : Bool) : Frame → Prop
  | .array items => ∀ x ∈ items, Loaded dates x
  | .object members key => LoadedPairs dates members ∧ IsJoined key

def State.IsLoaded (dates : Bool) : State → Prop
  | .name members => LoadedPairs dates members
  | .colon members key => LoadedPairs dates members ∧ IsJoined key
  | .done v => Loaded dates v
  | _ => True

/-- Whatever a reader holds is loaded. -/
structure Config.IsLoaded (dates : Bool) (config : Config) : Prop where
  stack : ∀ frame ∈ config.stack, frame.IsLoaded dates
  state : config.state.IsLoaded dates

theorem gives_integer (negative : Bool) {digits : List Char} (hne : digits ≠ [])
    (hd : ∀ c ∈ digits, c.isDigit = true) : Gives (Loaded dates) (integer negative digits) := by
  unfold integer
  split
  · exact ⟨fun _ h => (nomatch h), fun _ h => (nomatch h)⟩
  · next hlength =>
    refine gives_ok (.int ?_)
    have hcount := digitCount_ofDigitChars_le hne hd
    unfold IsShort
    cases negative
    · show digitCount (Nat.ofDigitChars 10 digits 0 : ℤ).natAbs ≤ _
      rw [Int.natAbs_natCast]
      omega
    · show digitCount (-(Nat.ofDigitChars 10 digits 0 : ℤ)).natAbs ≤ _
      rw [Int.natAbs_neg, Int.natAbs_natCast]
      omega

theorem unwrapDate_eq_mapping {ms : List (Text × Value)} (h : ∀ x, ms ≠ [(dateKey, x)]) :
    Document.unwrapDate (Entries.ofTexts ms) = .ok (.mapping (Entries.ofTexts ms)) := by
  match ms with
  | [] => rfl
  | [(key, x)] =>
    have hkey : key ≠ dateKey := fun hk => h x (hk ▸ rfl)
    exact if_neg hkey
  | _ :: _ :: _ => rfl

theorem unwrapDate_text (s : Text) :
    Document.unwrapDate (Entries.ofTexts [(dateKey, .text s)]) =
      match IsoReader.moment (IsoReader.expandZulu s) with
      | .ok m => .ok (.moment m)
      | .error problem => .error (.refusal (.badDate s problem)) := rfl

theorem unwrapDate_not_text {x : Value} (h : x.text? = none) :
    Document.unwrapDate (Entries.ofTexts [(dateKey, x)]) =
      x.literal >>= fun l => .error (.refusal (.dateNotText l)) := by
  cases x with
  | text s => exact nomatch h
  | _ => simp [Document.unwrapDate, Entries.ofTexts]

theorem gives_unwrapDate {x : Value} (h : Loaded true x) :
    Gives (Loaded true) ((Document.unwrapDate (Entries.ofTexts [(dateKey, x)])).mapError .rejected) := by
  cases hx : x.text? with
  | some s =>
    rw [Value.eq_text_of_text? hx, unwrapDate_text]
    cases hm : IsoReader.moment (IsoReader.expandZulu s) with
    | ok m => exact gives_ok (.moment rfl (isReadable_of_moment hm))
    | error problem => exact gives_refusal _
  | none =>
    obtain ⟨l, hl⟩ := h.exists_literal
    rw [unwrapDate_not_text hx, hl]
    exact gives_refusal _

theorem gives_closeObject {pairs : List (Value × Value)} (h : LoadedPairs dates pairs) :
    Gives (Loaded dates) (closeObject (Document.closing dates) pairs) := by
  obtain ⟨ms, rfl, hms⟩ := h
  obtain ⟨ns, hpairs, hkeys, hvalues⟩ := Entries.exists_ofPairs ms.reverse
  have hjoined : ∀ n ∈ ns, IsJoined n.1 := fun n hn => (hms n (List.mem_reverse.1 (hvalues hn))).1
  have hns : ∀ n ∈ ns, Loaded dates n.2 := fun n hn => (hms n (List.mem_reverse.1 (hvalues hn))).2
  have hreverse : (Entries.ofTexts ms).reverse = Entries.ofTexts ms.reverse := List.map_reverse.symm
  rw [closeObject, hreverse, hpairs]
  cases dates with
  | false => exact gives_ok (.mapping hkeys hjoined hns fun h => nomatch h)
  | true =>
    by_cases hw : ∃ x, ns = [(dateKey, x)]
    · obtain ⟨x, rfl⟩ := hw
      exact gives_unwrapDate (hns _ List.mem_cons_self)
    · have hwrapper : ∀ x, ns ≠ [(dateKey, x)] := fun x hx => hw ⟨x, hx⟩
      rw [Document.closing, if_pos rfl, unwrapDate_eq_mapping hwrapper]
      exact gives_ok (.mapping hkeys hjoined hns fun _ => hwrapper)

theorem gives_startValue {stack : List Frame} {l : Lexeme} (hl : l.token.IsSound)
    (hs : ∀ frame ∈ stack, frame.IsLoaded dates) :
    Gives (Config.IsLoaded dates) (startValue stack l) := by
  have hdone {v : Value} (hv : Loaded dates v) : Gives (Config.IsLoaded dates) (.ok ⟨stack, .done v⟩) :=
    gives_ok ⟨hs, hv⟩
  obtain ⟨token, start⟩ := l
  cases token with
  | openObject => exact gives_ok ⟨hs, trivial⟩
  | openArray => exact gives_ok ⟨hs, trivial⟩
  | null => exact hdone .null
  | bool b => exact hdone (.bool b)
  | string s => exact hdone (.text hl)
  | int negative digits => exact (gives_integer negative hl.1 hl.2).map fun v hv => ⟨hs, hv⟩
  | float x => exact hdone (.float x)
  | badString problem position => exact gives_malformed problem position
  | _ => exact gives_malformed .expectedValue start

theorem gives_startName {stack : List Frame} {members : List (Value × Value)} {l : Lexeme} (hl : l.token.IsSound)
    (hs : ∀ frame ∈ stack, frame.IsLoaded dates) (hm : LoadedPairs dates members) :
    Gives (Config.IsLoaded dates) (startName stack members l) := by
  obtain ⟨token, start⟩ := l
  cases token with
  | string s => exact gives_ok ⟨hs, hm, hl⟩
  | badString problem position => exact gives_malformed problem position
  | _ => exact gives_malformed .expectedName start

theorem gives_continueValue {stack : List Frame} (l : Lexeme) (hs : ∀ frame ∈ stack, frame.IsLoaded dates)
    (hv : Loaded dates v) : Gives (Config.IsLoaded dates) (continueValue (Document.closing dates) stack v l) := by
  obtain ⟨token, start⟩ := l
  cases stack with
  | nil => exact gives_malformed .extraData start
  | cons frame stack =>
    rw [List.forall_mem_cons] at hs
    cases frame with
    | array items =>
      have hitems : ∀ x ∈ v :: items, Loaded dates x := List.forall_mem_cons.2 ⟨hv, hs.1⟩
      cases token with
      | comma => exact gives_ok ⟨List.forall_mem_cons.2 ⟨hitems, hs.2⟩, trivial⟩
      | closeArray => exact gives_ok ⟨hs.2, .list fun x hx => hitems x (List.mem_reverse.1 hx)⟩
      | _ => exact gives_malformed .expectedComma start
    | object members key =>
      have hmembers := LoadedPairs.cons hs.1.1 hs.1.2 hv
      cases token with
      | comma => exact gives_ok ⟨hs.2, hmembers⟩
      | closeObject => exact (gives_closeObject hmembers).map fun o ho => ⟨hs.2, ho⟩
      | _ => exact gives_malformed .expectedComma start

/-- A step from what is loaded leads to what is loaded. -/
theorem gives_step {config : Config} {l : Lexeme} (hl : l.token.IsSound) (h : config.IsLoaded dates) :
    Gives (Config.IsLoaded dates) (step (Document.closing dates) config l) := by
  obtain ⟨stack, state⟩ := config
  obtain ⟨hs, hstate⟩ := h
  have hnone : LoadedPairs dates [] := ⟨[], rfl, fun _ hm => nomatch hm⟩
  unfold step
  cases state with
  | value => exact gives_startValue hl hs
  | itemOrClose =>
    simp only
    split
    · exact gives_ok ⟨hs, .list fun _ hx => nomatch hx⟩
    · exact gives_startValue hl (List.forall_mem_cons.2 ⟨fun _ hx => (nomatch hx), hs⟩)
  | nameOrClose =>
    simp only
    split
    · exact (gives_closeObject hnone).map fun o ho => ⟨hs, ho⟩
    · exact gives_startName hl hs hnone
  | name members => exact gives_startName hl hs hstate
  | colon members key =>
    simp only
    split
    · exact gives_ok ⟨List.forall_mem_cons.2 ⟨hstate, hs⟩, trivial⟩
    · exact gives_malformed .expectedColon l.start
  | done v => exact gives_continueValue l hs hstate

theorem gives_foldlM {ls : List Lexeme} (hl : ∀ l ∈ ls, l.token.IsSound) {config : Config}
    (h : config.IsLoaded dates) : Gives (Config.IsLoaded dates) (ls.foldlM (step (Document.closing dates)) config) := by
  induction ls generalizing config with
  | nil => exact gives_ok h
  | cons l ls ih =>
    rw [List.forall_mem_cons] at hl
    have hstep := gives_step hl.1 h
    rw [List.foldlM_cons]
    cases hr : step (Document.closing dates) config l with
    | ok next => exact ih hl.2 (hstep.ok next hr)
    | error f => exact ⟨fun _ hy => (nomatch hy), fun f hf => hstep.rejected f (hr.trans hf)⟩

/-- What is read of a text is a loaded value. -/
theorem gives_read (dates : Bool) (cs : List Char) : Gives (Loaded dates) (read (Document.closing dates) cs) := by
  unfold read
  split
  · exact gives_malformed .byteOrderMark 0
  · have hrun : Gives (Config.IsLoaded dates)
        ((lexemesFrom 0 cs).foldlM (step (Document.closing dates)) ⟨[], .value⟩) :=
      gives_foldlM (fun _ => isSound_of_mem_lexemesFrom) ⟨fun _ hf => (nomatch hf), trivial⟩
    unfold readLexemes
    cases hr : (lexemesFrom 0 cs).foldlM (step (Document.closing dates)) ⟨[], .value⟩ with
    | error f =>
      refine ⟨fun _ hy => (nomatch hy), fun fault hf => hrun.rejected fault ?_⟩
      rw [hr, Except.error.inj hf]
    | ok config =>
      have hconfig := hrun.ok config hr
      simp only [bind, Except.bind]
      split
      · exact gives_ok hconfig.state
      · exact gives_malformed _ _

end Json

/-- A fault over a document that can neither be read nor refused. -/
inductive Fault.IsUnreadable : Fault → Prop where
  | isDirectory (path : Text) : IsUnreadable (.breakdown (.isDirectory path))
  | notUtf8 (fault : Text.Utf8Fault) : IsUnreadable (.breakdown (.notUtf8 fault))
  | numeralTooLong (digits : ℕ) : IsUnreadable (.breakdown (.numeralTooLong digits))

namespace Document
variable {files : Files} {role : Role} {path : FilePath} {f : Fault}

theorem loaded_of_decode {path : Text} {bytes : List UInt8} (h : decode role path dates bytes = .ok v) :
    Loaded dates v := by
  unfold decode at h
  split at h
  · exact nomatch h
  · next cs _ =>
    obtain ⟨w, hw, h⟩ := bind_eq_ok h
    split at h
    · cases h
      unfold parse at hw
      split at hw
      · next hread => exact Except.ok.inj hw ▸ (gives_read dates _).ok _ hread
      all_goals exact nomatch hw
    · exact nomatch h

theorem decode_eq_error {path : Text} {bytes : List UInt8} (h : decode role path dates bytes = .error f) :
    (∃ refusal, f = .refusal refusal) ∨ f.IsUnreadable := by
  unfold decode at h
  split at h
  · cases h
    exact .inr (.notUtf8 _)
  · rcases bind_eq_error h with hp | ⟨w, -, h⟩
    · unfold parse at hp
      split at hp
      · exact nomatch hp
      · cases hp
        exact .inl ⟨_, rfl⟩
      · cases hp
        exact .inr (.numeralTooLong _)
      · next hread =>
        cases hp
        exact .inl ((gives_read dates _).rejected _ hread)
    · split at h
      · exact nomatch h
      · cases h
        exact .inl ⟨_, rfl⟩

theorem loaded_of_load (h : load files role path dates = .ok v) : Loaded dates v := by
  unfold load at h
  split at h
  · exact nomatch h
  · exact nomatch h
  · obtain ⟨w, hw, h⟩ := bind_eq_ok h
    have hloaded := loaded_of_decode hw
    cases role with
    | record => exact Except.ok.inj h ▸ hloaded
    | criteria => exact (check_of_checkShape h).1 ▸ hloaded

/-- A document that is not loaded is missing, refused or unreadable. -/
theorem load_eq_error (h : load files role path dates = .error f) :
    (∃ refusal, f = .refusal refusal) ∨ f = .breakdown (.missingFile role path.text) ∨ f.IsUnreadable := by
  unfold load at h
  split at h
  · exact .inr (.inl (Except.error.inj h).symm)
  · cases h
    exact .inr (.inr (.isDirectory _))
  · rcases bind_eq_error h with hd | ⟨w, hw, h⟩
    · exact (decode_eq_error hd).imp_right .inr
    · obtain ⟨problem, hproblem⟩ := (loaded_of_decode hw).exists_check
      cases role with
      | record => exact nomatch h
      | criteria =>
        have hshape : checkShape path.text w = .error f := h
        rw [checkShape, hproblem] at hshape
        cases problem with
        | none => exact nomatch hshape
        | some problem =>
          cases hshape
          exact .inl ⟨_, rfl⟩

end Document
end Criteria
