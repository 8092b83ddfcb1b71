import Criteria.Command
import Criteria.Proofs.Canonical
import Criteria.Proofs.Explanation
import Criteria.Proofs.Printable

namespace Criteria
open Json
variable {dates : Bool} {v : Value} {blanks : List Char}

namespace Json
variable {j : Json} {js : List Json} {ms : List (Text × Json)}

/-- A tree whose text is read as a value where no dates are looked for. -/
def IsReadable (j : Json) : Prop := ∃ v, j.denote (Document.closing false) = .ok v

theorem isReadable_int {n : ℤ} (h : IsShort n) : (int n).IsReadable := ⟨.int n, Loaded.integer_toDigits h⟩

theorem isReadable_array (h : ∀ j ∈ js, j.IsReadable) : (array js).IsReadable := by
  have hitems : ∃ vs, denoteItems (Document.closing false) js = .ok vs := by
    induction js with
    | nil => exact ⟨[], rfl⟩
    | cons j js ih =>
      rw [List.forall_mem_cons] at h
      obtain ⟨v, hv⟩ := h.1
      obtain ⟨vs, hvs⟩ := ih h.2
      refine ⟨v :: vs, ?_⟩
      rw [denoteItems, hv, hvs]
      rfl
  obtain ⟨vs, hvs⟩ := hitems
  refine ⟨.list vs, ?_⟩
  rw [denote, hvs]
  rfl

theorem denoteMembers_eq_ok {es : List (Value × Value)} (hjoined : ∀ m ∈ ms, IsJoined m.1)
    (h : denoteMembers (Document.closing false) ms = .ok es) :
    ∃ vs, es = Entries.ofTexts vs ∧ vs.map Prod.fst = ms.map Prod.fst := by
  induction ms generalizing es with
  | nil =>
    cases h
    exact ⟨[], rfl, rfl⟩
  | cons m ms ih =>
    rw [List.forall_mem_cons] at hjoined
    obtain ⟨v, -, h⟩ := bind_eq_ok h
    obtain ⟨es, hes, h⟩ := bind_eq_ok h
    cases h
    obtain ⟨vs, rfl, hvs⟩ := ih hjoined.2 hes
    have hname : joinPairs m.1 = m.1 := hjoined.1
    exact ⟨(m.1, v) :: vs, by rw [Entries.ofTexts_cons, hname], congrArg (List.cons m.1) hvs⟩

theorem isReadable_object (h : ∀ m ∈ ms, m.2.IsReadable) : (object ms).IsReadable := by
  have hmembers : ∃ es, denoteMembers (Document.closing false) ms = .ok es := by
    induction ms with
    | nil => exact ⟨[], rfl⟩
    | cons m ms ih =>
      rw [List.forall_mem_cons] at h
      obtain ⟨v, hv⟩ := h.1
      obtain ⟨es, hes⟩ := ih h.2
      refine ⟨(.text (joinPairs m.1), v) :: es, ?_⟩
      rw [denoteMembers, hv, hes]
      rfl
  obtain ⟨es, hes⟩ := hmembers
  refine ⟨.mapping (Entries.ofPairs es), ?_⟩
  rw [denote, hes]
  rfl

theorem field_of_denote_object {name : Text} {w : Value}
    (h : (object ((name, j) :: ms)).denote (Document.closing false) = .ok w)
    (hj : j.denote (Document.closing false) = .ok v) (hnames : (((name, j) :: ms).map Prod.fst).Nodup)
    (hjoined : ∀ m ∈ (name, j) :: ms, IsJoined m.1) : w.field name = v := by
  rw [List.forall_mem_cons] at hjoined
  have hname : joinPairs name = name := hjoined.1
  obtain ⟨es, hes, h⟩ := bind_eq_ok h
  cases h
  obtain ⟨x, hx, hes⟩ := bind_eq_ok hes
  obtain ⟨es, hms, hes⟩ := bind_eq_ok hes
  cases hes
  cases Except.ok.inj (hx.symm.trans hj)
  obtain ⟨vs, rfl, hvs⟩ := denoteMembers_eq_ok hjoined.2 hms
  have hnodup : (((name, v) :: vs).map Prod.fst).Nodup := by
    rwa [List.map_cons, hvs]
  rw [hname, ← Entries.ofTexts_cons (name, v), Entries.ofPairs_of_nodup hnodup, Value.field, Entries.get, Entries.get?,
    Entries.ofTexts_cons, List.find?_cons_of_pos (by simp)]
  rfl

end Json

/-- What comes of a dump: something of a certain kind, or the fault over what is nested too deep. -/
inductive Dumped {α : Type} (P : α → Prop) (deep : Prop) : Except Fault α → Prop where
  | ok {x : α} : P x → Dumped P deep (.ok x)
  | tooDeep : deep → Dumped P deep (.error (.breakdown .valueTooDeep))

namespace Dumped
variable {α β : Type} {P : α → Prop} {Q : β → Prop} {deep deep' : Prop} {r : Except Fault α}

theorem mono (h : Dumped P deep r) (hd : deep → deep') : Dumped P deep' r := by
  cases h with
  | ok h => exact .ok h
  | tooDeep h => exact .tooDeep (hd h)

theorem bind {g : α → Except Fault β} (h : Dumped P deep r) (hg : ∀ x, P x → Dumped Q deep (g x)) :
    Dumped Q deep (r >>= g) := by
  cases h with
  | ok h => exact hg _ h
  | tooDeep h => exact .tooDeep h

theorem map {g : α → β} (h : Dumped P deep r) (hg : ∀ x, P x → Q (g x)) : Dumped Q deep (r.map g) := by
  cases h with
  | ok h => exact .ok (hg _ h)
  | tooDeep h => exact .tooDeep h

end Dumped

namespace Loaded
variable {level : ℕ}

theorem dumped_plainItems {items : List Value}
    (h : ∀ x ∈ items, Dumped IsReadable (dumpLimit ≤ level + x.height) (x.plainAt level)) :
    Dumped (fun js => ∀ j ∈ js, j.IsReadable) (dumpLimit ≤ level + Value.itemsHeight items)
      (Value.plainItems level items) := by
  induction items with
  | nil => exact .ok (List.forall_mem_nil _)
  | cons x xs ih =>
    rw [List.forall_mem_cons] at h
    have hheight : Value.itemsHeight (x :: xs) = max x.height (Value.itemsHeight xs) := rfl
    refine (h.1.mono fun hd => by omega).bind fun j hj => ?_
    exact ((ih h.2).mono fun hd => by omega).bind fun js hjs => .ok (List.forall_mem_cons.2 ⟨hj, hjs⟩)

theorem isReadable_insertMember (name : Text) {j : Json} {members : List (Text × Json)} (hj : j.IsReadable)
    (h : ∀ m ∈ members, m.2.IsReadable) : ∀ m ∈ insertMember name j members, m.2.IsReadable := by
  induction members with
  | nil => exact List.forall_mem_singleton.2 hj
  | cons m ms ih =>
    rw [List.forall_mem_cons] at h
    rw [insertMember]
    split
    · exact List.forall_mem_cons.2 ⟨hj, h.2⟩
    · exact List.forall_mem_cons.2 ⟨h.1, ih h.2⟩

theorem dumped_plainEntries {ms : List (Text × Value)}
    (h : ∀ m ∈ ms, Dumped IsReadable (dumpLimit ≤ level + m.2.height) (m.2.plainAt level))
    {members : List (Text × Json)} (hmembers : ∀ m ∈ members, m.2.IsReadable) :
    Dumped (fun js => ∀ m ∈ js, m.2.IsReadable) (dumpLimit ≤ level + Value.entriesHeight (Entries.ofTexts ms))
      (Value.plainEntries level members (Entries.ofTexts ms)) := by
  induction ms generalizing members with
  | nil => exact .ok hmembers
  | cons m ms ih =>
    rw [List.forall_mem_cons] at h
    have hheight : Value.entriesHeight (Entries.ofTexts (m :: ms)) =
        max m.2.height (Value.entriesHeight (Entries.ofTexts ms)) := rfl
    refine (h.1.mono fun hd => by omega).bind fun j hj => ?_
    exact (ih h.2 (isReadable_insertMember m.1 hj hmembers)).mono fun hd => by omega

/-- A loaded value has a plain tree that can be read, unless it is nested too deep. -/
theorem dumped_plainAt (h : Loaded dates v) (level : ℕ) :
    Dumped IsReadable (dumpLimit ≤ level + v.height) (v.plainAt level) := by
  -- the levels above and the height below add up to the same number at every member
  induction h generalizing level with
  | @list items _ ih =>
    have hheight : (Value.list items).height = Value.itemsHeight items + 1 := rfl
    unfold Value.plainAt
    split
    · exact .tooDeep (by omega)
    · refine Dumped.map ?_ fun _ => isReadable_array
      exact (dumped_plainItems fun x hx => ih x hx (level + 1)).mono fun hd => by omega
  | @mapping ms _ _ _ _ ih =>
    have hheight : (Value.mapping (Entries.ofTexts ms)).height = Value.entriesHeight (Entries.ofTexts ms) + 1 := rfl
    unfold Value.plainAt
    split
    · exact .tooDeep (by omega)
    · refine Dumped.map ?_ fun _ => isReadable_object
      exact (dumped_plainEntries (fun m hm => ih m hm (level + 1)) (List.forall_mem_nil _)).mono fun hd => by omega
  | int hs =>
    unfold Value.plainAt
    split
    · exact .tooDeep (by omega)
    · exact .ok (isReadable_int hs)
  | float x =>
    unfold Value.plainAt
    split
    · exact .tooDeep (by omega)
    · cases x <;> exact .ok ⟨_, rfl⟩
  | _ =>
    unfold Value.plainAt
    split
    · exact .tooDeep (by omega)
    · exact .ok ⟨_, rfl⟩

end Loaded

/-- What is relied on: the dump of a loaded value can be read, and characters of ASCII come out as they are. -/
structure Host.IsSound (host : Host) : Prop where
  readable {dates : Bool} {v : Value} {j : Json} : Loaded dates v → host.dump v = .ok j → j.IsReadable
  ascii {cs : List Char} : IsAscii cs → host.encode (.ofChars cs) = .ok (String.ofList cs)
  start {cs : List Char} {t : Text} {s : String} : IsAscii cs → host.encode (.ofChars cs ++ t) = .ok s →
    ∃ rest, s.toList = cs ++ rest

theorem Host.isSound_standard : Host.standard.IsSound where
  readable h hj := by
    have hdumped := h.dumped_plainAt 0
    rw [show Value.plainAt 0 _ = _ from hj] at hdumped
    cases hdumped with
    | ok hreadable => exact hreadable
  ascii {cs} _ := by
    show (Text.encodeUtf8 (.ofChars cs)).mapError _ = _
    rw [Text.encodeUtf8, Text.chars?_ofChars]
    rfl
  start {cs t s} _ hs := by
    have hencode := mapError_eq_ok hs
    unfold Text.encodeUtf8 at hencode
    split at hencode
    · next ds hds =>
      cases hencode
      obtain ⟨cs', rest, rfl, hcs', -⟩ := List.map_eq_append_iff.1 (Text.chars?_eq_some_iff.1 hds).symm
      rw [Text.ofChars_inj.1 hcs', String.toList_ofList]
      exact ⟨rest, rfl⟩
    · exact nomatch hencode

namespace Command

def reportedVerdict? (report : Value) : Option Bool :=
  match report.field "eligible" with
  | .bool b => some b
  | _ => none

/-- The verdict that the output shows: in JSON that of the report, else in the first line. -/
def shownVerdict? (json : Bool) (output : String) : Option Bool :=
  if json then (read (Document.closing false) output.toList).toOption.bind reportedVerdict?
  else
    let line := output.toList.takeWhile (· != '\n')
    if line = "ELIGIBLE".toList then some true else if line = "NOT ELIGIBLE".toList then some false else none

variable {host : Host} {args : Arguments} {settings : Settings} {record criteria : Value} {e : Explanation}

@[simp] theorem shownVerdict?_render (j : Json) :
    shownVerdict? true (render indented j ++ "\n") =
      (j.denote (Document.closing false)).toOption.bind reportedVerdict? := by
  have hblank : ∀ c ∈ ['\n'], isSpace c = true := List.forall_mem_singleton.2 rfl
  have htext : (render indented j ++ "\n").toList = j.chars indented 0 ++ ['\n'] := by
    rw [String.toList_append, render, String.toList_ofList]
    rfl
  rw [shownVerdict?, if_pos rfl, htext, read_chars _ isPlain_indented j hblank]

@[simp] theorem shownVerdict?_empty (json : Bool) : shownVerdict? json "" = none := by
  cases json <;> decide +kernel

/-- JSON is written in ASCII, so it is printed as it is. -/
theorem encode_jsonText (hhost : host.IsSound) (j : Json) :
    host.encode (jsonText j) = .ok (render indented j ++ "\n") := by
  have hascii : IsAscii (j.chars indented 0 ++ ['\n']) := fun c hc =>
    (List.mem_append.1 hc).elim (isAscii_chars_indented 0 j c) fun hc => (by decide : IsAscii ['\n']) c hc
  have htext : jsonText j = .ofChars (j.chars indented 0 ++ ['\n']) := by
    simp [jsonText, render, Text.ofString]
  have hstring : String.ofList (j.chars indented 0 ++ ['\n']) = render indented j ++ "\n" :=
    String.toList_inj.1 (by simp [render])
  rw [htext, hhost.ascii hascii, hstring]

/-- A report of bad input can be refused only in words. -/
theorem encode_failureText_eq_error_iff (hhost : host.IsSound) {text : Text} {members : List (Text × Json)}
    {f : Fault} :
    host.encode (failureText args text members) = .error f ↔
      args.json = false ∧ host.encode ("ERROR: " ++ text ++ "\n") = .error f := by
  rw [failureText]
  cases args.json with
  | false => exact ⟨fun h => ⟨rfl, h⟩, And.right⟩
  | true =>
    rw [if_pos rfl, encode_jsonText hhost]
    exact ⟨fun h => (nomatch h), fun h => nomatch h.1⟩

theorem shownVerdict?_failureText (hhost : host.IsSound) {text : Text} {members : List (Text × Json)} {output : String}
    (h : host.encode (failureText args text members) = .ok output) : shownVerdict? args.json output = none := by
  unfold failureText at h
  cases hjson : args.json with
  | false =>
    rw [hjson, if_neg Bool.false_ne_true, List.append_assoc] at h
    have hstart : IsAscii "ERROR: ".toList := by decide
    obtain ⟨rest, hrest⟩ := hhost.start hstart h
    rw [shownVerdict?, if_neg Bool.false_ne_true, hrest]
    simp
  | true =>
    rw [hjson, if_pos rfl, encode_jsonText hhost] at h
    have hnames : (["eligible", "error"] : List Text).Nodup := by decide
    have hjoined : ∀ m ∈ ([("eligible", .null), ("error", .object members)] : List (Text × Json)), IsJoined m.1 :=
      List.forall_mem_cons.2 ⟨isJoined_ofChars _, List.forall_mem_singleton.2 (isJoined_ofChars _)⟩
    rw [← Except.ok.inj h, shownVerdict?_render]
    cases hreport : denote (Document.closing false) (.object [("eligible", .null), ("error", .object members)]) with
    | error f => rfl
    | ok report =>
      have hnull := field_of_denote_object (v := .null) hreport rfl hnames hjoined
      show reportedVerdict? report = none
      rw [reportedVerdict?, hnull]

theorem put_cons {t : Text} {s : String} (h : host.encode t = .ok s) (ts : List Text) :
    put host (t :: ts) = (s ++ (put host ts).1, (put host ts).2) := by
  rw [put, h]

theorem printing_singleton (host : Host) (t : Text) (errors : String) (exit : Exit) :
    (∃ s, host.encode t = .ok s ∧ printing host [t] errors exit = ⟨s, errors, .ok exit⟩) ∨
      ∃ f, host.encode t = .error f ∧ printing host [t] errors exit = ⟨"", errors, .error f⟩ := by
  cases h : host.encode t with
  | ok s => exact .inl ⟨s, rfl, by rw [printing, put_cons h]; simp [put, Except.map]⟩
  | error f => exact .inr ⟨f, rfl, by rw [printing, put, h]; rfl⟩

/-- The first line is the verdict, and only a summary behind it can be refused. -/
theorem exists_printing_plainTexts (hhost : host.IsSound) (args : Arguments) (e : Explanation) (errors : String)
    (exit : Exit) :
    ∃ output, shownVerdict? false output = some e.eligible ∧
      printing host (plainTexts args e) errors exit =
        ⟨output, errors, if args.explain then (host.encode (e.text ++ "\n")).map fun _ => exit else .ok exit⟩ := by
  obtain ⟨line, hascii, hline, hshown⟩ : ∃ line : List Char, IsAscii line ∧
      (if e.eligible then ("ELIGIBLE" : Text) else "NOT ELIGIBLE") ++ "\n" = .ofChars line ∧
      ∀ rest, shownVerdict? false (String.ofList line ++ rest) = some e.eligible := by
    cases e.eligible with
    | true => exact ⟨"ELIGIBLE\n".toList, by decide, rfl, fun rest => by simp [shownVerdict?]⟩
    | false => exact ⟨"NOT ELIGIBLE\n".toList, by decide, rfl, fun rest => by simp [shownVerdict?]⟩
  refine ⟨_, hshown (put host (if args.explain then [e.text ++ "\n"] else [])).1, ?_⟩
  rw [printing, plainTexts, hline, put_cons (hhost.ascii hascii)]
  cases args.explain with
  | false => rfl
  | true =>
    cases h : host.encode (e.text ++ "\n") with
    | ok s => simp [put, h, Except.map]
    | error f => simp [put, h, Except.map]

theorem mapM_json_eq_error_iff {outcomes : List Outcome} {dump : Dump} {f : Fault} :
    outcomes.mapM (Outcome.json dump) = .error f ↔ (outcomes.map Outcome.resolved).mapM dump = .error f := by
  induction outcomes with
  | nil => exact ⟨fun h => (nomatch h), fun h => nomatch h⟩
  | cons o os ih =>
    rw [List.map_cons, mapM_cons_eq_error_iff, mapM_cons_eq_error_iff, ih, Outcome.json]
    cases dump o.resolved <;> simp [Except.map]

theorem isReadable_of_mapM_json (hhost : host.IsSound) (hr : Loaded dates record)
    (h : (explain settings record criteria).outcome = .ok e) {js : List Json}
    (hjs : e.outcomes.mapM (Outcome.json host.dump) = .ok js) : ∀ j ∈ js, j.IsReadable := by
  obtain ⟨cs, -, hreports⟩ := explain_eq_ok h
  intro j hj
  obtain ⟨o, ho, hoj⟩ := exists_of_mem_mapM hjs hj
  obtain ⟨c, -, found, matched, he, rfl⟩ := exists_reports_of_mem hreports ho
  have hloaded : Loaded dates found.rendered := by
    rw [Value.resolve_eq (evaluate_eq_ok he).1]
    exact hr.rendered_along _
  obtain ⟨resolved, hresolved, rfl⟩ := map_eq_ok hoj
  refine isReadable_object ?_
  simp only [List.forall_mem_cons]
  exact ⟨⟨_, rfl⟩, ⟨_, rfl⟩, hhost.readable hloaded hresolved, ⟨_, rfl⟩, List.forall_mem_nil _⟩

def hashMember (hash : String) : Text × Json := ("criteria_hash", .string hash)

/-- What a report in full tells behind the verdict. -/
def fullMembers (e : Explanation) (js : List Json) (hash : String) : List (Text × Json) :=
  ("outcomes", .array js) :: (e.verdictMembers ++ [hashMember hash])

def reportMembers (args : Arguments) (e : Explanation) (js : List Json) (hash : String) : List (Text × Json) :=
  let others : List (Text × Json) := ("outcomes", .array js) :: e.verdictMembers
  (others.filter fun m => args.explain || m.1 != Text.ofString "outcomes") ++ [hashMember hash]

variable {js : List Json} {hash : String}

theorem reportMembers_sublist : (reportMembers args e js hash).Sublist (fullMembers e js hash) :=
  List.filter_sublist.append_right [hashMember hash]

theorem verdictJson_eq (hjs : e.outcomes.mapM (Outcome.json host.dump) = .ok js)
    (hhash : fingerprint criteria = .ok hash) :
    verdictJson host args criteria e =
      .ok (.object (("eligible", .bool e.eligible) :: reportMembers args e js hash)) := by
  have hmembers : e.members host.dump =
      .ok (("eligible", .bool e.eligible) :: ("outcomes", .array js) :: e.verdictMembers) := by
    rw [Explanation.members, hjs]
    rfl
  rw [verdictJson, hmembers, hhash]
  show Except.ok (Json.object (List.filter _ ((Text.ofString "eligible", Json.bool e.eligible) :: _) ++ _)) = _
  rw [List.filter_cons_of_pos (by cases args.explain <;> rfl)]
  rfl

theorem nodup_reportNames :
    (((("eligible" : Text), Json.bool e.eligible) :: reportMembers args e js hash).map Prod.fst).Nodup := by
  have hall : (["eligible", "outcomes", "failed_paths", "explanation_text", "criteria_hash"] : List Text).Nodup := by
    decide
  exact hall.sublist ((reportMembers_sublist.map Prod.fst).cons_cons _)

theorem isJoined_reportName :
    ∀ m ∈ (("eligible" : Text), Json.bool e.eligible) :: reportMembers args e js hash, IsJoined m.1 := by
  refine List.forall_mem_cons.2 ⟨isJoined_ofChars _, fun m hm => ?_⟩
  have hm := reportMembers_sublist.subset hm
  simp only [fullMembers, hashMember, Explanation.verdictMembers, List.cons_append, List.nil_append, List.mem_cons,
    List.not_mem_nil, or_false] at hm
  rcases hm with rfl | rfl | rfl | rfl <;> exact isJoined_ofChars _

theorem isReadable_reportMember (hjs : ∀ j ∈ js, j.IsReadable) :
    ∀ m ∈ reportMembers args e js hash, m.2.IsReadable := by
  have hfailed : (Json.array (e.failedPaths.map .string)).IsReadable := by
    refine isReadable_array fun j hj => ?_
    obtain ⟨path, -, rfl⟩ := List.mem_map.1 hj
    exact ⟨_, rfl⟩
  have hall : ∀ m ∈ fullMembers e js hash, m.2.IsReadable :=
    List.forall_mem_cons.2 ⟨isReadable_array hjs, List.forall_mem_cons.2 ⟨hfailed,
      List.forall_mem_cons.2 ⟨⟨_, rfl⟩, List.forall_mem_singleton.2 ⟨_, rfl⟩⟩⟩⟩
  exact fun m hm => hall m (reportMembers_sublist.subset hm)

theorem shownVerdict?_report (hjs : ∀ j ∈ js, j.IsReadable) :
    shownVerdict? true
      (render indented (.object (("eligible", .bool e.eligible) :: reportMembers args e js hash)) ++ "\n") =
        some e.eligible := by
  obtain ⟨report, hreport⟩ :
      (Json.object (("eligible", .bool e.eligible) :: reportMembers args e js hash)).IsReadable :=
    isReadable_object (List.forall_mem_cons.2 ⟨⟨_, rfl⟩, isReadable_reportMember hjs⟩)
  rw [shownVerdict?_render, hreport]
  show reportedVerdict? report = _
  rw [reportedVerdict?, field_of_denote_object hreport rfl nodup_reportNames isJoined_reportName]

/-- A report of loaded documents is printed unless a value in it cannot be dumped. -/
theorem exists_verdictJson (hhost : host.IsSound) (args : Arguments) (hr : Loaded dates record)
    (hc : Loaded dates criteria) (h : (explain settings record criteria).outcome = .ok e) :
    (∃ f, (e.outcomes.map Outcome.resolved).mapM host.dump = .error f ∧
      verdictJson host args criteria e = .error f) ∨
    ∃ trees j, (e.outcomes.map Outcome.resolved).mapM host.dump = .ok trees ∧
      verdictJson host args criteria e = .ok j ∧
      shownVerdict? true (render indented j ++ "\n") = some e.eligible := by
  cases hjs : e.outcomes.mapM (Outcome.json host.dump) with
  | error f =>
    refine .inl ⟨f, mapM_json_eq_error_iff.1 hjs, ?_⟩
    rw [verdictJson, Explanation.members, hjs]
    rfl
  | ok js =>
    obtain ⟨trees, htrees⟩ : ∃ trees, (e.outcomes.map Outcome.resolved).mapM host.dump = .ok trees := by
      cases hd : (e.outcomes.map Outcome.resolved).mapM host.dump with
      | ok trees => exact ⟨trees, rfl⟩
      | error f => exact nomatch hjs.symm.trans (mapM_json_eq_error_iff.2 hd)
    obtain ⟨hash, hhash⟩ : ∃ hash, fingerprint criteria = .ok hash := by
      rw [fingerprint, Value.canonicalText, hc.canonical_eq]
      exact ⟨_, rfl⟩
    exact .inr ⟨trees, _, htrees, verdictJson_eq hjs hhash,
      shownVerdict?_report (isReadable_of_mapM_json hhost hr h hjs)⟩

end Command
end Criteria
