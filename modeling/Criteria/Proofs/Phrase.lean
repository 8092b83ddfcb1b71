import Criteria.Json.Reader
import Criteria.Proofs.Steps

namespace Criteria.Json

/-- A value without parts, as it is written. -/
inductive Scalar where
  | null
  | bool (b : Bool)
  | int (negative : Bool) (digits : List Char)
  | float (x : Binary64)
  | string (s : Text)

/-- A value as it is written, with the members of an object in order and keys that may come again. -/
inductive Phrase where
  | scalar (s : Scalar)
  | array (items : List Phrase)
  | object (members : List (Text × Phrase))

def Scalar.token : Scalar → Token
  | null => .null
  | bool b => .bool b
  | int negative digits => .int negative digits
  | float x => .float x
  | string s => .string s

namespace Phrase

mutual

def tokens : Phrase → List Token
  | scalar s => [s.token]
  | array [] => [.openArray, .closeArray]
  | array (p :: ps) => .openArray :: (tokens p ++ (itemTokens ps ++ [.closeArray]))
  | object [] => [.openObject, .closeObject]
  | object ((k, p) :: ms) => .openObject :: .string k :: .colon :: (tokens p ++ (memberTokens ms ++ [.closeObject]))

def itemTokens : List Phrase → List Token
  | [] => []
  | p :: ps => .comma :: (tokens p ++ itemTokens ps)

def memberTokens : List (Text × Phrase) → List Token
  | [] => []
  | (k, p) :: ms => .comma :: .string k :: .colon :: (tokens p ++ memberTokens ms)

end

mutual

/-- No object, however deep, has a key twice. -/
def KeysOnce : Phrase → Prop
  | scalar _ => True
  | array ps => ItemKeysOnce ps
  | object ms => (ms.map Prod.fst).Nodup ∧ MemberKeysOnce ms

def ItemKeysOnce : List Phrase → Prop
  | [] => True
  | p :: ps => KeysOnce p ∧ ItemKeysOnce ps

def MemberKeysOnce : List (Text × Phrase) → Prop
  | [] => True
  | (_, p) :: ms => KeysOnce p ∧ MemberKeysOnce ms

end

end Phrase

section
variable {ε : Type} (close : List (Value × Value) → Except ε Value)

def Scalar.denote : Scalar → Except (ReadFault ε) Value
  | null => .ok .null
  | bool b => .ok (.bool b)
  | int negative digits => integer negative digits
  | float x => .ok (.number (.float x))
  | string s => .ok (.text s)

namespace Phrase

mutual

/-- The value of a phrase, put together from the inside. -/
def denote : Phrase → Except (ReadFault ε) Value
  | scalar s => s.denote
  | array ps => (denoteItems ps).map .list
  | object ms => denoteMembers ms >>= fun es => (close (Entries.ofPairs es)).mapError .rejected

def denoteItems : List Phrase → Except (ReadFault ε) (List Value)
  | [] => .ok []
  | p :: ps => do
    let v ← denote p
    let vs ← denoteItems ps
    return v :: vs

def denoteMembers : List (Text × Phrase) → Except (ReadFault ε) (List (Value × Value))
  | [] => .ok []
  | (k, p) :: ms => do
    let v ← denote p
    let es ← denoteMembers ms
    return (.text k, v) :: es

end

variable {p : Phrase} {ls : List Lexeme} {stack : List Frame}

theorem exists_lexeme {token : Token} {ts : List Token} (h : ls.map Lexeme.token = token :: ts) :
    ∃ start others, ls = ⟨token, start⟩ :: others ∧ others.map Lexeme.token = ts := by
  obtain ⟨⟨_, start⟩, others, rfl, rfl, hothers⟩ := List.map_eq_cons_iff.1 h
  exact ⟨start, others, rfl, hothers⟩

theorem exists_firstToken (p : Phrase) :
    ∃ token more, p.tokens = token :: more ∧ token ≠ .closeArray ∧ token ≠ .other := by
  unfold tokens
  split
  · next s =>
    refine ⟨s.token, [], rfl, ?_⟩
    cases s <;> exact ⟨nofun, nofun⟩
  all_goals exact ⟨_, _, rfl, nofun, nofun⟩

theorem step_scalar (s : Scalar) (start : Nat) :
    step close ⟨stack, .value⟩ ⟨s.token, start⟩ = s.denote.map fun v => ⟨stack, .done v⟩ := by
  cases s <;> rfl

theorem step_itemOrClose {l : Lexeme} (h : l.token ≠ .closeArray) :
    step close ⟨stack, .itemOrClose⟩ l = step close ⟨.array [] :: stack, .value⟩ l := by
  obtain ⟨token, start⟩ := l
  cases token with
  | closeArray => exact absurd rfl h
  | _ => rfl

theorem foldlM_firstItem {ts : List Token} (h : ls.map Lexeme.token = p.tokens ++ ts) :
    ls.foldlM (step close) ⟨stack, .itemOrClose⟩ = ls.foldlM (step close) ⟨.array [] :: stack, .value⟩ := by
  obtain ⟨token, more, htokens, hclose, -⟩ := p.exists_firstToken
  rw [htokens] at h
  obtain ⟨start, others, rfl, -⟩ := exists_lexeme h
  rw [List.foldlM_cons, List.foldlM_cons, step_itemOrClose close hclose]

/-- What comes behind a value is read with the value. -/
theorem foldlM_behind_value {first others : List Lexeme} {r : Except (ReadFault ε) Value}
    {g : Value → Except (ReadFault ε) Config}
    (hfirst : first.foldlM (step close) ⟨stack, .value⟩ = r.map fun v => ⟨stack, .done v⟩)
    (hothers : ∀ v, others.foldlM (step close) ⟨stack, .done v⟩ = g v) :
    (first ++ others).foldlM (step close) ⟨stack, .value⟩ = r >>= g := by
  rw [List.foldlM_append, hfirst]
  cases r with
  | error f => rfl
  | ok v => exact hothers v

-- the lexemes are given by their tokens alone: where they start matters to malformed texts only

mutual

theorem foldlM_tokens (p : Phrase) (ls : List Lexeme) (h : ls.map Lexeme.token = p.tokens) (stack : List Frame) :
    ls.foldlM (step close) ⟨stack, .value⟩ = (p.denote close).map fun v => ⟨stack, .done v⟩ := by
  -- the stack is arbitrary: a phrase leaves what is open below it as it was
  match p with
  | scalar s =>
    rw [tokens] at h
    obtain ⟨start, _, rfl, hnone⟩ := exists_lexeme h
    cases List.map_eq_nil_iff.1 hnone
    rw [List.foldlM_cons, step_scalar, denote]
    cases (s.denote : Except (ReadFault ε) Value) <;> rfl
  | array [] =>
    rw [tokens] at h
    obtain ⟨_, _, rfl, hend⟩ := exists_lexeme h
    obtain ⟨_, _, rfl, hnone⟩ := exists_lexeme hend
    cases List.map_eq_nil_iff.1 hnone
    rfl
  | array (p :: ps) =>
    rw [tokens] at h
    obtain ⟨_, _, rfl, hls⟩ := exists_lexeme h
    obtain ⟨first, others, rfl, hfirst, hothers⟩ := List.map_eq_append_iff.1 hls
    show (first ++ others).foldlM (step close) ⟨stack, .itemOrClose⟩ = _
    have hrest (v : Value) := foldlM_itemTokens ps others hothers stack [] v
    rw [foldlM_firstItem close hls, foldlM_behind_value close (foldlM_tokens p first hfirst _) hrest,
      denote, denoteItems]
    cases p.denote close with
    | error f => rfl
    | ok v => cases denoteItems close ps <;> rfl
  | object [] =>
    rw [tokens] at h
    obtain ⟨_, _, rfl, hend⟩ := exists_lexeme h
    obtain ⟨_, _, rfl, hnone⟩ := exists_lexeme hend
    cases List.map_eq_nil_iff.1 hnone
    show (closeObject close []).map _ >>= _ = (closeObject close []).map _
    cases closeObject close [] <;> rfl
  | object ((k, p) :: ms) =>
    rw [tokens] at h
    obtain ⟨_, _, rfl, hname⟩ := exists_lexeme h
    obtain ⟨_, _, rfl, hcolon⟩ := exists_lexeme hname
    obtain ⟨_, _, rfl, hls⟩ := exists_lexeme hcolon
    obtain ⟨first, others, rfl, hfirst, hothers⟩ := List.map_eq_append_iff.1 hls
    show (first ++ others).foldlM (step close) ⟨.object [] k :: stack, .value⟩ = _
    have hrest (v : Value) := foldlM_memberTokens ms others hothers stack [] k v
    rw [foldlM_behind_value close (foldlM_tokens p first hfirst _) hrest, denote, denoteMembers]
    cases p.denote close with
    | error f => rfl
    | ok v => cases denoteMembers close ms <;> rfl

theorem foldlM_itemTokens (ps : List Phrase) (ls : List Lexeme)
    (h : ls.map Lexeme.token = itemTokens ps ++ [.closeArray]) (stack : List Frame) (items : List Value) (v : Value) :
    ls.foldlM (step close) ⟨.array items :: stack, .done v⟩ =
      (denoteItems close ps).map fun vs => ⟨stack, .done (.list ((v :: items).reverse ++ vs))⟩ := by
  match ps with
  | [] =>
    obtain ⟨_, _, rfl, hnone⟩ := exists_lexeme h
    cases List.map_eq_nil_iff.1 hnone
    show _ = Except.ok (Config.mk stack (.done (.list ((v :: items).reverse ++ []))))
    rw [List.append_nil]
    rfl
  | p :: ps =>
    rw [itemTokens, List.cons_append, List.append_assoc] at h
    obtain ⟨_, _, rfl, hls⟩ := exists_lexeme h
    obtain ⟨first, others, rfl, hfirst, hothers⟩ := List.map_eq_append_iff.1 hls
    show (first ++ others).foldlM (step close) ⟨.array (v :: items) :: stack, .value⟩ = _
    have hrest (u : Value) := foldlM_itemTokens ps others hothers stack (v :: items) u
    rw [foldlM_behind_value close (foldlM_tokens p first hfirst _) hrest, denoteItems]
    simp only [List.reverse_cons, List.append_assoc]
    cases p.denote close with
    | error f => rfl
    | ok u => cases denoteItems close ps <;> rfl

theorem foldlM_memberTokens (ms : List (Text × Phrase)) (ls : List Lexeme)
    (h : ls.map Lexeme.token = memberTokens ms ++ [.closeObject]) (stack : List Frame)
    (members : List (Value × Value)) (key : Text) (v : Value) :
    ls.foldlM (step close) ⟨.object members key :: stack, .done v⟩ =
      (denoteMembers close ms >>= fun es =>
        (close (Entries.ofPairs (((.text key, v) :: members).reverse ++ es))).mapError .rejected).map
          fun o => ⟨stack, .done o⟩ := by
  match ms with
  | [] =>
    obtain ⟨_, _, rfl, hnone⟩ := exists_lexeme h
    cases List.map_eq_nil_iff.1 hnone
    show (closeObject close ((.text key, v) :: members)).map _ >>= _ =
      ((close (Entries.ofPairs (((.text key, v) :: members).reverse ++ []))).mapError ReadFault.rejected).map _
    rw [List.append_nil]
    show _ = (closeObject close ((.text key, v) :: members)).map _
    cases closeObject close ((.text key, v) :: members) <;> rfl
  | (k, p) :: ms =>
    rw [memberTokens, List.cons_append, List.cons_append, List.cons_append, List.append_assoc] at h
    obtain ⟨_, _, rfl, hname⟩ := exists_lexeme h
    obtain ⟨_, _, rfl, hcolon⟩ := exists_lexeme hname
    obtain ⟨_, _, rfl, hls⟩ := exists_lexeme hcolon
    obtain ⟨first, others, rfl, hfirst, hothers⟩ := List.map_eq_append_iff.1 hls
    show (first ++ others).foldlM (step close) ⟨.object ((.text key, v) :: members) k :: stack, .value⟩ = _
    have hrest (u : Value) := foldlM_memberTokens ms others hothers stack ((.text key, v) :: members) k u
    rw [foldlM_behind_value close (foldlM_tokens p first hfirst _) hrest, denoteMembers]
    simp only [List.reverse_cons, List.append_assoc]
    cases p.denote close with
    | error f => rfl
    | ok u => cases denoteMembers close ms <;> rfl

end

/-- The tokens that close open containers, each with what it still holds in front. -/
def Closes : List Frame → List Token → Prop
  | [], ts => ts = []
  | .array _ :: stack, ts => ∃ ps more, ts = itemTokens ps ++ .closeArray :: more ∧ Closes stack more
  | .object .. :: stack, ts => ∃ ms more, ts = memberTokens ms ++ .closeObject :: more ∧ Closes stack more

/-- The tokens with which a reader comes to an end. What it has taken of an array, of an object or of a member is
put back in front of them. -/
def Completes (config : Config) (ts : List Token) : Prop :=
  match config.state with
  | .value => ∃ p more, ts = tokens p ++ more ∧ Closes config.stack more
  | .itemOrClose => ∃ ps more, .openArray :: ts = tokens (array ps) ++ more ∧ Closes config.stack more
  | .nameOrClose => ∃ ms more, .openObject :: ts = tokens (object ms) ++ more ∧ Closes config.stack more
  | .name _ => ∃ ms more, .comma :: ts = memberTokens ms ++ .closeObject :: more ∧ Closes config.stack more
  | .colon _ _ => ∃ p ms more, ts = .colon :: (tokens p ++ (memberTokens ms ++ .closeObject :: more)) ∧
      Closes config.stack more
  | .done _ => Closes config.stack ts

variable {config next : Config} {l : Lexeme} {ts : List Token}

theorem completes_startValue (h : (startValue stack l : Except (ReadFault ε) Config) = .ok next)
    (hts : Completes next ts) :
    ∃ p more, l.token :: ts = tokens p ++ more ∧ Closes stack more := by
  have hscalar (s : Scalar) (hs : Closes stack ts) :
      ∃ p more, s.token :: ts = tokens p ++ more ∧ Closes stack more :=
    ⟨.scalar s, ts, by rw [tokens]; rfl, hs⟩
  obtain ⟨token, start⟩ := l
  cases token with
  | openObject =>
    cases h
    obtain ⟨ms, more, heq, hmore⟩ := hts
    exact ⟨.object ms, more, heq, hmore⟩
  | openArray =>
    cases h
    obtain ⟨ps, more, heq, hmore⟩ := hts
    exact ⟨.array ps, more, heq, hmore⟩
  | null =>
    cases h
    exact hscalar .null hts
  | bool b =>
    cases h
    exact hscalar (.bool b) hts
  | string s =>
    cases h
    exact hscalar (.string s) hts
  | int negative digits =>
    obtain ⟨v, -, rfl⟩ := map_eq_ok h
    exact hscalar (.int negative digits) hts
  | float x =>
    cases h
    exact hscalar (.float x) hts
  | _ => exact nomatch h

theorem completes_startName {members : List (Value × Value)}
    (h : (startName stack members l : Except (ReadFault ε) Config) = .ok next) (hts : Completes next ts) :
    ∃ key p ms more, l.token = .string key ∧
      ts = .colon :: (tokens p ++ (memberTokens ms ++ .closeObject :: more)) ∧ Closes stack more := by
  obtain ⟨token, start⟩ := l
  cases token with
  | string key =>
    cases h
    obtain ⟨p, ms, more, heq, hmore⟩ := hts
    exact ⟨key, p, ms, more, rfl, heq, hmore⟩
  | _ => exact nomatch h

theorem completes_continueValue {v : Value} (h : continueValue close stack v l = .ok next) (hts : Completes next ts) :
    Closes stack (l.token :: ts) := by
  obtain ⟨token, start⟩ := l
  cases stack with
  | nil => exact nomatch h
  | cons frame stack =>
    -- what comes behind a value depends on the innermost container that is open
    cases frame with
    | array items =>
      cases token with
      | comma =>
        cases h
        obtain ⟨p, more, rfl, ps, after, rfl, hafter⟩ := hts
        exact ⟨p :: ps, after, by simp [itemTokens], hafter⟩
      | closeArray =>
        cases h
        exact ⟨[], ts, rfl, hts⟩
      | _ => exact nomatch h
    | object members key =>
      cases token with
      | comma =>
        cases h
        exact hts
      | closeObject =>
        obtain ⟨o, -, rfl⟩ := map_eq_ok h
        exact ⟨[], ts, rfl, hts⟩
      | _ => exact nomatch h

/-- A token that is taken stands in front of those that complete what is then open. -/
theorem completes_step (h : step close config l = .ok next) (hts : Completes next ts) :
    Completes config (l.token :: ts) := by
  obtain ⟨stack, state⟩ := config
  unfold step at h
  -- in each state the tokens that may come are those that some phrase, or the end of a container, begins with
  cases state with
  | value => exact completes_startValue h hts
  | itemOrClose =>
    simp only at h
    split at h
    · next hclose =>
      cases h
      exact ⟨[], ts, by rw [tokens, hclose]; rfl, hts⟩
    · obtain ⟨p, more, heq, ps, after, rfl, hafter⟩ := completes_startValue h hts
      exact ⟨p :: ps, after, by simp [tokens, heq], hafter⟩
  | nameOrClose =>
    simp only at h
    split at h
    · next hclose =>
      obtain ⟨o, -, rfl⟩ := map_eq_ok h
      exact ⟨[], ts, by rw [tokens, hclose]; rfl, hts⟩
    · obtain ⟨key, p, ms, more, hkey, rfl, hmore⟩ := completes_startName h hts
      exact ⟨(key, p) :: ms, more, by simp [tokens, hkey], hmore⟩
  | name members =>
    obtain ⟨key, p, ms, more, hkey, rfl, hmore⟩ := completes_startName h hts
    exact ⟨(key, p) :: ms, more, by simp [memberTokens, hkey], hmore⟩
  | colon members key =>
    simp only at h
    split at h
    · next hcolon =>
      cases h
      obtain ⟨p, more, rfl, ms, after, rfl, hafter⟩ := hts
      exact ⟨p, ms, after, by rw [hcolon], hafter⟩
    · exact nomatch h
  | done v => exact completes_continueValue close h hts

theorem completes_of_foldlM {v : Value} (h : ls.foldlM (step close) config = .ok ⟨[], .done v⟩) :
    Completes config (ls.map Lexeme.token) := by
  -- phrases are put together from the end of the text, where nothing is open and nothing is left
  induction ls generalizing config with
  | nil =>
    cases h
    rfl
  | cons l ls ih =>
    rw [List.foldlM_cons] at h
    obtain ⟨next, hstep, hrest⟩ := bind_eq_ok h
    exact completes_step close hstep (ih hrest)

variable {cs : List Char} {v : Value}

theorem exists_of_read (h : read close cs = .ok v) : ∃ p, (lexemesFrom 0 cs).map Lexeme.token = tokens p := by
  unfold read at h
  split at h
  · exact nomatch h
  · obtain ⟨config, hrun, hend⟩ := bind_eq_ok h
    split at hend
    · obtain ⟨p, more, heq, hmore⟩ := completes_of_foldlM close hrun
      cases hmore
      exact ⟨p, heq.trans (List.append_nil _)⟩
    · exact nomatch hend

theorem head?_ne_byteOrderMark (h : (lexemesFrom 0 cs).map Lexeme.token = tokens p) : cs.head? ≠ some '\ufeff' := by
  intro hmark
  obtain ⟨rest, rfl⟩ := List.head?_eq_some_iff.1 hmark
  have hscan : scan 0 '\ufeff' rest = (.other, 0) := rfl
  obtain ⟨token, more, htokens, -, hother⟩ := p.exists_firstToken
  rw [lexemesFrom, hscan, htokens] at h
  exact hother (List.cons.inj h).1.symm

/-- The text of a phrase is read as what the phrase denotes, also where that is no value. -/
theorem read_eq_denote (h : (lexemesFrom 0 cs).map Lexeme.token = tokens p) : read close cs = p.denote close := by
  have hmark : (cs.head? == some '\ufeff') = false := beq_eq_false_iff_ne.2 (head?_ne_byteOrderMark h)
  rw [read, hmark, if_neg Bool.false_ne_true, readLexemes, foldlM_tokens close p _ h]
  cases p.denote close <;> rfl

/-- A text is read as a value exactly if it is the text of a phrase that denotes the value. -/
theorem read_eq_ok_iff :
    read close cs = .ok v ↔ ∃ p, (lexemesFrom 0 cs).map Lexeme.token = tokens p ∧ p.denote close = .ok v := by
  constructor
  · intro h
    obtain ⟨p, hp⟩ := exists_of_read close h
    exact ⟨p, hp, (read_eq_denote close hp).symm.trans h⟩
  · rintro ⟨p, hp, hv⟩
    exact (read_eq_denote close hp).trans hv

end Phrase
end
end Criteria.Json
