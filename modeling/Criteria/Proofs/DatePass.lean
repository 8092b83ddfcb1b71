import Criteria.Proofs.Parts
import Criteria.Proofs.Phrase
import Criteria.Proofs.Reading

namespace Criteria
open Json

def Entries.unwrapped? (entries : List (Value × Value)) : Option Value :=
  match entries with
  | [(.text key, v)] =>
    if key = dateKey then
      v.text? >>= fun s => (IsoReader.moment (IsoReader.expandZulu s)).toOption.map .moment
    else some (.mapping entries)
  | entries => some (.mapping entries)

mutual

/-- A tree with its wrappers opened, the inner ones first. -/
def Value.dated? : Value → Option Value
  | .list items => (Value.datedItems? items).map .list
  | .mapping entries => Value.datedEntries? entries >>= Entries.unwrapped?
  | v => some v

def Value.datedItems? : List Value → Option (List Value)
  | [] => some []
  | v :: vs => do
    let t ← v.dated?
    let ts ← Value.datedItems? vs
    return t :: ts

def Value.datedEntries? : List (Value × Value) → Option (List (Value × Value))
  | [] => some []
  | (k, v) :: es => do
    let t ← v.dated?
    let ts ← Value.datedEntries? es
    return (k, t) :: ts

end

namespace Value
variable {u t v w : Value} {es ts : List (Value × Value)}

theorem isMapping_of_dated? (h : u.dated? = some t) (ht : t.isMapping = true) : u.isMapping = true := by
  cases u with
  | mapping entries => rfl
  | list items =>
    rw [dated?] at h
    obtain ⟨ts, -, rfl⟩ := Option.map_eq_some_iff.1 h
    exact ht
  | _ =>
    cases h
    exact ht

/-- Two entries of one key, of which the second has the value of the first with its wrappers opened. -/
def IsDatedEntry (e t : Value × Value) : Prop := t.1 = e.1 ∧ e.2.dated? = some t.2

theorem datedEntries?_eq_some_iff : datedEntries? es = some ts ↔ List.Forall₂ IsDatedEntry es ts := by
  induction es generalizing ts with
  | nil => rw [datedEntries?, List.forall₂_nil_left_iff, Option.some_inj, eq_comm]
  | cons e es ih =>
    obtain ⟨k, v⟩ := e
    rw [datedEntries?, List.forall₂_cons_left_iff]
    constructor
    · intro h
      obtain ⟨t, ht, h⟩ := Option.bind_eq_some_iff.1 h
      obtain ⟨ts', hts, h⟩ := Option.bind_eq_some_iff.1 h
      cases h
      exact ⟨(k, t), ts', ⟨rfl, ht⟩, ih.1 hts, rfl⟩
    · rintro ⟨⟨k', t⟩, ts', ⟨rfl, ht⟩, hts, rfl⟩
      rw [ht, ih.2 hts]
      rfl

theorem forall₂_insert (h : List.Forall₂ IsDatedEntry es ts) (key : Value) (hv : v.dated? = some w) :
    List.Forall₂ IsDatedEntry (Entries.insert key v es) (Entries.insert key w ts) := by
  induction h with
  | nil => exact .cons ⟨rfl, hv⟩ .nil
  | @cons e t es ts he hes ih =>
    rw [Entries.insert, Entries.insert, he.1]
    split
    · exact .cons ⟨rfl, hv⟩ hes
    · exact .cons he ih

/-- Opening the wrappers of all pairs and keeping the last of each key goes in either order. -/
theorem datedEntries?_ofPairs (h : datedEntries? es = some ts) :
    datedEntries? (Entries.ofPairs es) = some (Entries.ofPairs ts) := by
  have hfold (es ts acc acc' : List (Value × Value)) (h : List.Forall₂ IsDatedEntry es ts)
      (hacc : List.Forall₂ IsDatedEntry acc acc') :
      List.Forall₂ IsDatedEntry (es.foldl (fun es e => Entries.insert e.1 e.2 es) acc)
        (ts.foldl (fun es e => Entries.insert e.1 e.2 es) acc') := by
    induction h generalizing acc acc' with
    | nil => exact hacc
    | @cons e t es ts he _ ih =>
      rw [List.foldl_cons, List.foldl_cons, he.1]
      exact ih _ _ (forall₂_insert hacc e.1 he.2)
  exact datedEntries?_eq_some_iff.2 (hfold es ts [] [] (datedEntries?_eq_some_iff.1 h) .nil)

end Value

namespace Document

variable {es : List (Value × Value)} {v : Value}

theorem toOption_refuse_dateNotText (v : Value) :
    (v.literal >>= fun l => .error (.refusal (.dateNotText l)) : Except Fault Value).toOption = none := by
  cases v.literal <;> rfl

theorem toOption_unwrapDate_text (s : Text) :
    (unwrapDate [(.text dateKey, .text s)]).toOption =
      (IsoReader.moment (IsoReader.expandZulu s)).toOption.map .moment := by
  refine (congrArg Except.toOption (unwrapDate_text s)).trans ?_
  cases IsoReader.moment (IsoReader.expandZulu s) <;> rfl

theorem toOption_unwrapDate (es : List (Value × Value)) : (unwrapDate es).toOption = Entries.unwrapped? es := by
  match es with
  | [] => rfl
  | [(key, v)] =>
    cases key with
    | text key =>
      by_cases hk : key = dateKey
      · subst hk
        cases v with
        | text s => exact toOption_unwrapDate_text s
        | _ => exact toOption_refuse_dateNotText _
      · exact (congrArg Except.toOption (if_neg hk)).trans (if_neg hk).symm
    | _ => rfl
  | (key, _) :: _ :: _ => cases key <;> rfl

theorem category_of_unwrapDate {r : Refusal} (h : unwrapDate es = .error (.refusal r)) :
    r.category = .invalidCriteria := by
  unfold unwrapDate at h
  split at h
  · split at h
    · split at h
      · split at h
        · exact nomatch h
        · cases h
          rfl
      · rcases bind_eq_error h with hl | ⟨l, -, h⟩
        · exact nomatch (Value.literal_eq_error hl).1
        · cases h
          rfl
    · exact nomatch h
  · exact nomatch h

end Document

theorem Value.dated?_ofPairs {es ts : List (Value × Value)} (h : datedEntries? es = some ts) :
    (mapping (Entries.ofPairs es)).dated? = (Document.unwrapDate (Entries.ofPairs ts)).toOption := by
  rw [dated?, datedEntries?_ofPairs h, Document.toOption_unwrapDate]
  rfl

/-- What is read with a search for dates is what a pass makes of what is read without. Where the search is refused the
pass fails as well, unless the reader saw more than it kept. -/
structure Agrees {α : Type} (keepsAll : Prop) (pass : α → Option α) (plain dated : Except (ReadFault Fault) α) :
    Prop where
  ok : ∀ t, dated = .ok t → ∃ u, plain = .ok u ∧ pass u = some t
  error : ∀ u f, plain = .ok u → dated = .error f →
    (∃ fault, f = .rejected fault ∧ ∀ r, fault = .refusal r → r.category = .invalidCriteria) ∧
      (keepsAll → pass u = none)

section
variable {α β γ : Type} {keepsAll keepsAll' : Prop} {pass : α → Option α} {pass' : β → Option β} {pass'' : γ → Option γ}
  {plain dated : Except (ReadFault Fault) α} {plain' dated' : Except (ReadFault Fault) β}

theorem agrees_self (h : ∀ u, plain = .ok u → pass u = some u) : Agrees keepsAll pass plain plain where
  ok t ht := ⟨t, ht, h t ht⟩
  error _ _ hu hf := nomatch hu.symm.trans hf

theorem Agrees.map {g : α → β} (h : Agrees keepsAll pass plain dated) (hg : ∀ u, pass' (g u) = (pass u).map g) :
    Agrees keepsAll pass' (plain.map g) (dated.map g) where
  ok t ht := by
    obtain ⟨t, hd, rfl⟩ := map_eq_ok ht
    obtain ⟨u, hp, hu⟩ := h.ok t hd
    exact ⟨g u, by rw [hp]; rfl, by rw [hg, hu]; rfl⟩
  error u f hu hf := by
    obtain ⟨u, hp, rfl⟩ := map_eq_ok hu
    obtain ⟨hfault, hnone⟩ := h.error u f hp (map_eq_error hf)
    exact ⟨hfault, fun hall => by rw [hg, hnone hall]; rfl⟩

/-- Two things read one after the other, the second also where the first is refused. -/
theorem Agrees.pair {g : α → β → γ} (h : Agrees keepsAll pass plain dated)
    (h' : Agrees keepsAll' pass' plain' dated')
    (hg : ∀ u u', pass'' (g u u') = pass u >>= fun t => pass' u' >>= fun t' => some (g t t')) :
    Agrees (keepsAll ∧ keepsAll') pass'' (plain >>= fun u => plain' >>= fun u' => .ok (g u u'))
      (dated >>= fun t => dated' >>= fun t' => .ok (g t t')) where
  ok t ht := by
    obtain ⟨t, hd, ht⟩ := bind_eq_ok ht
    obtain ⟨t', hd', ht⟩ := bind_eq_ok ht
    cases ht
    obtain ⟨u, hp, hu⟩ := h.ok t hd
    obtain ⟨u', hp', hu'⟩ := h'.ok t' hd'
    exact ⟨g u u', by rw [hp, hp']; rfl, by rw [hg, hu, hu']; rfl⟩
  error u f hu hf := by
    obtain ⟨u, hp, hu⟩ := bind_eq_ok hu
    obtain ⟨u', hp', hu⟩ := bind_eq_ok hu
    cases hu
    rcases bind_eq_error hf with hd | ⟨t, hd, hf⟩
    · obtain ⟨hfault, hnone⟩ := h.error u f hp hd
      exact ⟨hfault, fun hall => by rw [hg, hnone hall.1]; rfl⟩
    · rcases bind_eq_error hf with hd' | ⟨t', -, hf⟩
      · obtain ⟨hfault, hnone⟩ := h'.error u' f hp' hd'
        refine ⟨hfault, fun hall => ?_⟩
        rw [hg, hnone hall.2]
        cases pass u <;> rfl
      · exact nomatch hf

end

/-- Members that agree make objects that agree, and where no key comes again nothing is lost. -/
theorem Agrees.close {keepsAll nodup : Prop} {plain dated : Except (ReadFault Fault) (List (Value × Value))}
    (h : Agrees keepsAll Value.datedEntries? plain dated)
    (hnodup : nodup → ∀ es, plain = .ok es → Entries.ofPairs es = es) :
    Agrees (nodup ∧ keepsAll) Value.dated?
      (plain >>= fun es => (Document.closing false (Entries.ofPairs es)).mapError .rejected)
      (dated >>= fun es => (Document.closing true (Entries.ofPairs es)).mapError .rejected) where
  ok t ht := by
    obtain ⟨ts, hd, hclose⟩ := bind_eq_ok ht
    obtain ⟨es, hp, hes⟩ := h.ok ts hd
    have hunwrap : Document.unwrapDate (Entries.ofPairs ts) = .ok t := mapError_eq_ok hclose
    exact ⟨.mapping (Entries.ofPairs es), by rw [hp]; rfl, by rw [Value.dated?_ofPairs hes, hunwrap]; rfl⟩
  error u f hu hf := by
    obtain ⟨es, hp, hu⟩ := bind_eq_ok hu
    cases hu
    rcases bind_eq_error hf with hd | ⟨ts, hd, hclose⟩
    · -- a member is refused, and it is in the tree for the pass to find unless its key comes again
      obtain ⟨hfault, hnone⟩ := h.error es f hp hd
      refine ⟨hfault, fun hall => ?_⟩
      rw [Value.dated?, hnodup hall.1 es hp, hnone hall.2]
      rfl
    · obtain ⟨es', hp', hes⟩ := h.ok ts hd
      cases hp.symm.trans hp'
      obtain ⟨fault, hunwrap, rfl⟩ : ∃ fault, Document.unwrapDate (Entries.ofPairs ts) = .error fault ∧ _ :=
        mapError_eq_error hclose
      refine ⟨⟨fault, rfl, fun r hr => Document.category_of_unwrapDate (hr ▸ hunwrap)⟩, fun _ => ?_⟩
      rw [Value.dated?_ofPairs hes, hunwrap]
      rfl

namespace Json.Phrase

theorem dated?_scalar (s : Scalar) (v : Value) (h : (s.denote : Except (ReadFault Fault) Value) = .ok v) :
    v.dated? = some v := by
  cases s with
  | int negative digits =>
    rw [Scalar.denote, integer] at h
    split at h
    · exact nomatch h
    · cases h
      rfl
  | _ =>
    cases h
    rfl

section
variable {ε : Type} {close : List (Value × Value) → Except ε Value} {ms : List (Text × Phrase)}
  {es : List (Value × Value)}

theorem exists_members_of_denoteMembers (h : denoteMembers close ms = .ok es) :
    ∃ ns, es = Entries.ofTexts ns ∧ ns.map Prod.fst = ms.map Prod.fst := by
  induction ms generalizing es with
  | nil =>
    cases h
    exact ⟨[], rfl, rfl⟩
  | cons m ms ih =>
    obtain ⟨v, -, h⟩ := bind_eq_ok h
    obtain ⟨es, hes, h⟩ := bind_eq_ok h
    cases h
    obtain ⟨ns, rfl, hkeys⟩ := ih hes
    exact ⟨(m.1, v) :: ns, rfl, congrArg (m.1 :: ·) hkeys⟩

theorem ofPairs_of_denoteMembers (h : denoteMembers close ms = .ok es) (hnodup : (ms.map Prod.fst).Nodup) :
    Entries.ofPairs es = es := by
  obtain ⟨ns, rfl, hkeys⟩ := exists_members_of_denoteMembers h
  exact Entries.ofPairs_of_nodup (hkeys ▸ hnodup)

end

mutual

theorem agrees_denote (p : Phrase) :
    Agrees p.KeysOnce Value.dated? (p.denote (Document.closing false)) (p.denote (Document.closing true)) := by
  match p with
  | scalar s =>
    rw [denote]
    exact agrees_self (dated?_scalar s)
  | array ps =>
    rw [denote, KeysOnce]
    exact (agrees_denoteItems ps).map fun us => by rw [Value.dated?]
  | object ms =>
    rw [denote, KeysOnce]
    exact (agrees_denoteMembers ms).close fun hnodup es h => ofPairs_of_denoteMembers h hnodup

theorem agrees_denoteItems (ps : List Phrase) :
    Agrees (ItemKeysOnce ps) Value.datedItems? (denoteItems (Document.closing false) ps)
      (denoteItems (Document.closing true) ps) := by
  match ps with
  | [] => exact agrees_self fun us hus => by cases hus; rfl
  | p :: ps =>
    rw [denoteItems, ItemKeysOnce]
    exact (agrees_denote p).pair (agrees_denoteItems ps) fun u us => by rw [Value.datedItems?]; rfl

theorem agrees_denoteMembers (ms : List (Text × Phrase)) :
    Agrees (MemberKeysOnce ms) Value.datedEntries? (denoteMembers (Document.closing false) ms)
      (denoteMembers (Document.closing true) ms) := by
  match ms with
  | [] => exact agrees_self fun es hes => by cases hes; rfl
  | (k, p) :: ms =>
    rw [denoteMembers, MemberKeysOnce]
    exact (agrees_denote p).pair (agrees_denoteMembers ms) fun u es => by rw [Value.datedEntries?]; rfl

end

end Json.Phrase

namespace Document
variable {files : Files} {path : FilePath} {dates : Bool} {p : Phrase} {t u v : Value}

def HoldsPhrase (files : Files) (path : FilePath) (p : Phrase) : Prop :=
  ∃ bytes cs, files path = .file bytes ∧ Text.decodeUtf8 bytes = .ok cs ∧
    (lexemesFrom 0 (unifyLineEnds cs)).map Lexeme.token = p.tokens

theorem exists_read_of_load (h : load files .record path dates = .ok v) :
    ∃ bytes cs, files path = .file bytes ∧ Text.decodeUtf8 bytes = .ok cs ∧
      read (closing dates) (unifyLineEnds cs) = .ok v := by
  unfold load at h
  split at h
  · exact nomatch h
  · exact nomatch h
  · next bytes hbytes =>
    obtain ⟨w, hw, h⟩ := bind_eq_ok h
    cases h
    unfold decode at hw
    split at hw
    · exact nomatch hw
    · next cs hcs =>
      obtain ⟨w, hparse, hw⟩ := bind_eq_ok hw
      split at hw
      · cases hw
        unfold parse at hparse
        split at hparse
        · next hread =>
          cases hparse
          exact ⟨bytes, cs, hbytes, hcs, hread⟩
        all_goals exact nomatch hparse
      · exact nomatch hw

theorem exists_holdsPhrase (h : load files .record path dates = .ok v) : ∃ p, HoldsPhrase files path p := by
  obtain ⟨bytes, cs, hbytes, hcs, hread⟩ := exists_read_of_load h
  obtain ⟨p, hp⟩ := Phrase.exists_of_read _ hread
  exact ⟨p, bytes, cs, hbytes, hcs, hp⟩

namespace HoldsPhrase

/-- A record is loaded as what its phrase denotes. -/
theorem denote_of_load (hp : HoldsPhrase files path p) (h : load files .record path dates = .ok v) :
    p.denote (closing dates) = .ok v := by
  obtain ⟨bytes, cs, hbytes, hcs, hread⟩ := exists_read_of_load h
  obtain ⟨bytes', cs', hbytes', hcs', htokens⟩ := hp
  cases hbytes.symm.trans hbytes'
  cases hcs.symm.trans hcs'
  exact (Phrase.read_eq_denote _ htokens).symm.trans hread

theorem load_of_denote (hp : HoldsPhrase files path p) (h : p.denote (closing dates) = .ok v) :
    load files .record path dates =
      if v.isMapping then .ok v else .error (.refusal (.documentNotMapping .record path.text v.typeName)) := by
  obtain ⟨bytes, cs, hbytes, hcs, htokens⟩ := hp
  have hread := (Phrase.read_eq_denote (closing dates) htokens).trans h
  simp only [load, hbytes, decode, hcs, parse, hread]
  show ((if v.isMapping then .ok v else _) >>= Except.ok) = _
  split <;> rfl

theorem load_of_rejected {fault : Fault} (hp : HoldsPhrase files path p)
    (h : p.denote (closing dates) = .error (.rejected fault)) :
    ∃ r, fault = .refusal r ∧ load files .record path dates = .error (.refusal r) := by
  obtain ⟨bytes, cs, hbytes, hcs, htokens⟩ := hp
  have hread := (Phrase.read_eq_denote (closing dates) htokens).trans h
  obtain ⟨r, rfl⟩ := (gives_read dates _).rejected fault hread
  refine ⟨r, rfl, ?_⟩
  simp only [load, hbytes, decode, hcs, parse, hread]
  rfl

end HoldsPhrase
end Document

namespace Loaded
variable {dates : Bool} {v w x : Value}

theorem of_part {key : Option Value} (h : Loaded dates v) (hp : Part v key w) : Loaded dates w := by
  induction hp with
  | whole => exact h
  | item _ hi hx ih => exact ih.of_mem_items hi hx
  | entry _ he ih => exact ih.of_mem_entries he

theorem not_wrapper : ¬Loaded true (.mapping [(.text dateKey, x)]) := by
  intro h
  generalize hv : Value.mapping [(.text dateKey, x)] = v at h
  cases h with
  | mapping _ _ _ hw =>
    obtain ⟨⟨key, y⟩, rfl, hm⟩ := List.map_eq_singleton_iff.1 (Value.mapping.inj hv).symm
    cases hm
    exact hw rfl _ rfl
  | _ => exact nomatch hv

end Loaded

/-- A record loaded with a search for dates is the record loaded without, with the wrappers of its tree opened. Where
they cannot be opened, or leave no mapping, the record is refused; where they can, nothing but a key that comes again
in an object keeps it from being loaded. -/
theorem load_dates_eq_pass (files : Files) (path : FilePath) :
    (∀ t, Document.load files .record path true = .ok t →
      (∃ u, Document.load files .record path false = .ok u ∧ u.dated? = some t) ∧
      ∀ key x, ¬Part t key (.mapping [(.text dateKey, x)])) ∧
    ∀ u, Document.load files .record path false = .ok u →
      (∃ p, Document.HoldsPhrase files path p) ∧
      (∀ p t, Document.HoldsPhrase files path p → p.KeysOnce → u.dated? = some t → t.isMapping = true →
        Document.load files .record path true = .ok t) ∧
      ((∀ t, u.dated? = some t → t.isMapping = false) →
        ∃ r, Document.load files .record path true = .error (.refusal r) ∧ r.category = .invalidCriteria) := by
  -- both readings are of the same phrase, and `agrees_denote` says how they differ
  refine ⟨fun t ht => ⟨?_, ?_⟩, fun u hu => ⟨Document.exists_holdsPhrase hu, ?_, ?_⟩⟩
  · obtain ⟨p, hp⟩ := Document.exists_holdsPhrase ht
    obtain ⟨u, hplain, hdated⟩ := p.agrees_denote.ok t (hp.denote_of_load ht)
    have hm := Value.isMapping_of_dated? hdated (Document.load_eq_ok ht).1
    exact ⟨u, (hp.load_of_denote hplain).trans (if_pos hm), hdated⟩
  · exact fun key x hpart => Loaded.not_wrapper ((Document.loaded_of_load ht).of_part hpart)
  · intro p t hp honce hdated hm
    have hplain := hp.denote_of_load hu
    cases hd : p.denote (Document.closing true) with
    | ok t' =>
      obtain ⟨u', hplain', hdated'⟩ := p.agrees_denote.ok t' hd
      cases hplain.symm.trans hplain'
      cases hdated.symm.trans hdated'
      exact (hp.load_of_denote hd).trans (if_pos hm)
    | error f => exact nomatch ((p.agrees_denote.error u f hplain hd).2 honce).symm.trans hdated
  · intro hnone
    obtain ⟨p, hp⟩ := Document.exists_holdsPhrase hu
    have hplain := hp.denote_of_load hu
    cases hd : p.denote (Document.closing true) with
    | ok t =>
      obtain ⟨u', hplain', hdated⟩ := p.agrees_denote.ok t hd
      cases hplain.symm.trans hplain'
      have hm : ¬t.isMapping = true := by
        rw [hnone t hdated]
        exact Bool.false_ne_true
      exact ⟨_, (hp.load_of_denote hd).trans (if_neg hm), rfl⟩
    | error f =>
      obtain ⟨⟨fault, rfl, hcategory⟩, -⟩ := p.agrees_denote.error u f hplain hd
      obtain ⟨r, rfl, hload⟩ := hp.load_of_rejected hd
      exact ⟨r, hload, hcategory r rfl⟩

deriving instance DecidableEq for Token

/-- A wrapper in a list beside a mapping that has the date key and another one, and a record that is itself a wrapper,
of a number. -/
theorem load_dates_eq_pass_in_list :
    let text : String := "\x7b\"a\":[\x7b\"$date\":\"2024-05-01T12:00:00Z\"\x7d],\"b\":\x7b\"$date\":1,\"c\":2\x7d\x7d"
    let files : Files := fun path =>
      if path.steps = [("r" : Text)] then .file text.toUTF8.toList else .file "\x7b\"$date\":5\x7d".toUTF8.toList
    let wrapper : Phrase := .object [("$date", .scalar (.string "2024-05-01T12:00:00Z"))]
    let other : Phrase := .object [("$date", .scalar (.int false ['1'])), ("c", .scalar (.int false ['2']))]
    let phrase : Phrase := .object [("a", .array [wrapper]), ("b", other)]
    let record : FilePath := ⟨[], ["r"]⟩
    let number : FilePath := ⟨[], ["n"]⟩
    (∃ u t, Document.load files .record record false = .ok u ∧ u.dated? = some t ∧
      Document.HoldsPhrase files record phrase ∧ phrase.KeysOnce ∧ t.isMapping = true ∧
      Document.load files .record record true = .ok t ∧ ∀ key x, ¬Part t key (.mapping [(.text dateKey, x)])) ∧
    ∃ u r, Document.load files .record number false = .ok u ∧ u.dated? = none ∧
      Document.load files .record number true = .error (.refusal r) ∧ r.category = .invalidCriteria := by
  intro text files wrapper other phrase record number
  have hphrase : Document.HoldsPhrase files record phrase :=
    ⟨_, text.toList, rfl, by decide +kernel, by decide +kernel⟩
  have honce : phrase.KeysOnce := by
    simp [phrase, wrapper, other, Phrase.KeysOnce, Phrase.MemberKeysOnce, Phrase.ItemKeysOnce]
  constructor
  · obtain ⟨hdates, hplain⟩ := load_dates_eq_pass files record
    have hloaded : (Document.load files .record record true).toOption.isSome = true := by decide +kernel
    obtain ⟨t, ht⟩ := exists_eq_ok hloaded
    obtain ⟨⟨u, hu, hdated⟩, hnone⟩ := hdates t ht
    have hm := (Document.load_eq_ok ht).1
    exact ⟨u, t, hu, hdated, hphrase, honce, hm, (hplain u hu).2.1 phrase t hphrase honce hdated hm, hnone⟩
  · have hloaded : (Document.load files .record number false).toOption.isSome = true := by decide +kernel
    have hfails : (Document.load files .record number false).toOption.map (fun u => u.dated?.isNone) = some true := by
      decide +kernel
    obtain ⟨u, hu⟩ := exists_eq_ok hloaded
    rw [hu] at hfails
    have hdated : u.dated? = none := Option.isNone_iff_eq_none.1 (Option.some.inj hfails)
    have hnot : ∀ t, u.dated? = some t → t.isMapping = false := fun t ht => nomatch hdated.symm.trans ht
    obtain ⟨r, hr, hcategory⟩ := ((load_dates_eq_pass files number).2 u hu).2.2 hnot
    exact ⟨u, r, hu, hdated, hr, hcategory⟩

end Criteria
