import Criteria.Proofs.PrintedVerdict
import Criteria.Proofs.RoundTrip

namespace Criteria
open Json
variable {dates : Bool} {settings : Settings} {record criteria : Value} {f : Fault}

theorem Loaded.checkedCriteria_eq_error (hc : Loaded dates criteria) (h : checkedCriteria record criteria = .error f) :
    ∃ r, f = .refusal r := by
  unfold checkedCriteria at h
  split at h
  · obtain ⟨members, rfl, -⟩ := hc.entries_eq_ofTexts
    have hpaths : ∀ e ∈ Entries.ofTexts members, ∃ path, e.1 = .text path := by
      intro e he
      obtain ⟨m, -, rfl⟩ := List.mem_map.1 he
      exact ⟨m.1, rfl⟩
    obtain ⟨cs, hcs⟩ := criteriaOfEntries_of_text hpaths
    exact nomatch hcs.symm.trans h
  · exact ⟨_, (Except.error.inj h).symm⟩

theorem Loaded.refusal_of_error (hr : Loaded dates record) (hc : Loaded dates criteria)
    (h : (isEligible settings record criteria).outcome = .error f ∨
      (explain settings record criteria).outcome = .error f) : ∃ r, f = .refusal r := by
  cases hcs : checkedCriteria record criteria with
  | error g =>
    have hf : f = g := by
      rw [isEligible, explain, hcs] at h
      exact h.elim (fun h => (Except.error.inj h).symm) fun h => (Except.error.inj h).symm
    exact hf ▸ hc.checkedCriteria_eq_error hcs
  | ok cs =>
    rcases exists_evaluate_of_error hcs h with ⟨c, hmem, he⟩ | hlong
    · rcases evaluate_announced_or_numbers he with ⟨r, hf, -⟩ | hnumbers
      · exact ⟨r, hf⟩
      · have hmapping := (checkedCriteria_eq_ok hcs).2 ▸ hc
        have hentry : (Value.text c.1, c.2) ∈ cs.map fun c => (Value.text c.1, c.2) := List.mem_map_of_mem hmem
        exact absurd hnumbers (hr.not_numberFault (hmapping.of_mem_entries hentry))
    · exact absurd hlong hr.not_tooLongIn

namespace Command
variable {host : Host} {files : Files} {env : Environment} {args : Arguments}

/-- Both documents are loaded, and the environment has settings. -/
structure Prepared (files : Files) (env : Environment) (args : Arguments) (record criteria : Value)
    (settings : Settings) : Prop where
  record : Document.load files .record args.record args.parseDates = .ok record
  criteria : Document.load files .criteria args.criteria args.parseDates = .ok criteria
  settings : Settings.ofEnvironment env = .ok settings

/-- What keeps a check from being made: a fault over the record, else over the criteria, else over the environment. -/
inductive Unprepared (files : Files) (env : Environment) (args : Arguments) : Fault → Prop where
  | record {f : Fault} : Document.load files .record args.record args.parseDates = .error f →
    Unprepared files env args f
  | criteria {f : Fault} {record : Value} : Document.load files .record args.record args.parseDates = .ok record →
    Document.load files .criteria args.criteria args.parseDates = .error f → Unprepared files env args f
  | settings {r : Refusal} {record criteria : Value} :
    Document.load files .record args.record args.parseDates = .ok record →
    Document.load files .criteria args.criteria args.parseDates = .ok criteria →
    Settings.ofEnvironment env = .error r → Unprepared files env args (.refusal r)

/-- A check of loaded documents that comes to no answer ends with a refusal. -/
theorem Prepared.refusal_of_error (h : Prepared files env args record criteria settings)
    (herror : (isEligible settings record criteria).outcome = .error f ∨
      (explain settings record criteria).outcome = .error f) : ∃ r, f = .refusal r :=
  (Document.loaded_of_load h.record).refusal_of_error (Document.loaded_of_load h.criteria) herror

theorem prepared_or_unprepared (files : Files) (env : Environment) (args : Arguments) :
    (∃ record criteria settings, Prepared files env args record criteria settings) ∨
      ∃ f, Unprepared files env args f := by
  cases hr : Document.load files .record args.record args.parseDates with
  | error f => exact .inr ⟨f, .record hr⟩
  | ok record =>
    cases hc : Document.load files .criteria args.criteria args.parseDates with
    | error f => exact .inr ⟨f, .criteria hr hc⟩
    | ok criteria =>
      cases hs : Settings.ofEnvironment env with
      | error r => exact .inr ⟨_, .settings hr hc hs⟩
      | ok settings => exact .inl ⟨record, criteria, settings, hr, hc, hs⟩

theorem check_of_unprepared (h : Unprepared files env args f) : check files env args = .ofOutcome (.error f) := by
  cases h with
  | record hr => rw [check, hr]; rfl
  | criteria hr hc => rw [check, hr, hc]; rfl
  | settings hr hc hs => rw [check, hr, hc, hs]; rfl

theorem check_of_prepared (h : Prepared files env args record criteria settings) :
    check files env args = ⟨(explain settings record criteria).log,
      (explain settings record criteria).outcome.map fun e => (criteria, e)⟩ := by
  rw [check, h.record, h.criteria, h.settings]
  rfl

/-- A check comes to a verdict, with an explanation. -/
def Explained (files : Files) (env : Environment) (args : Arguments) (e : Explanation) : Prop :=
  ∃ record criteria settings, Prepared files env args record criteria settings ∧
    (explain settings record criteria).outcome = .ok e

/-- What keeps a check from a verdict, and is reported. -/
inductive Reported (files : Files) (env : Environment) (args : Arguments) : Fault → Prop where
  | unprepared {f : Fault} : Unprepared files env args f → ¬f.IsUnreadable → Reported files env args f
  | refused {f : Fault} {record criteria : Value} {settings : Settings} :
    Prepared files env args record criteria settings → (explain settings record criteria).outcome = .error f →
    Reported files env args f

/-- What keeps a command from printing what it has to print. In JSON that is a value that cannot be dumped; in words it
is the summary, or the report of bad input, that cannot be encoded. -/
inductive Refuses (host : Host) (files : Files) (env : Environment) (args : Arguments) : Fault → Prop where
  | dump {e : Explanation} {f : Fault} : args.json = true → Explained files env args e →
    (e.outcomes.map Outcome.resolved).mapM host.dump = .error f → Refuses host files env args f
  | summary {e : Explanation} {f : Fault} : args.json = false → args.explain = true → Explained files env args e →
    host.encode (e.text ++ "\n") = .error f → Refuses host files env args f
  | report {f g : Fault} : args.json = false → Reported files env args f →
    host.encode ("ERROR: " ++ f.text ++ "\n") = .error g → Refuses host files env args g

theorem unreadable_or_reported_or_explained (files : Files) (env : Environment) (args : Arguments) :
    (∃ f, Unprepared files env args f ∧ f.IsUnreadable) ∨ (∃ f, Reported files env args f) ∨
      ∃ e, Explained files env args e := by
  rcases prepared_or_unprepared files env args with ⟨record, criteria, settings, h⟩ | ⟨f, h⟩
  · cases he : (explain settings record criteria).outcome with
    | ok e => exact .inr (.inr ⟨e, record, criteria, settings, h, he⟩)
    | error f => exact .inr (.inl ⟨f, .refused h he⟩)
  · by_cases hf : f.IsUnreadable
    · exact .inl ⟨f, h, hf⟩
    · exact .inr (.inl ⟨f, .unprepared h hf⟩)

theorem Unprepared.members_or_unreadable (h : Unprepared files env args f) :
    (∃ members, faultMembers? f = some members) ∨ f.IsUnreadable := by
  have hload {role : Role} {path : FilePath} (h : Document.load files role path args.parseDates = .error f) :
      (∃ members, faultMembers? f = some members) ∨ f.IsUnreadable := by
    rcases Document.load_eq_error h with ⟨r, rfl⟩ | rfl | hf
    · exact .inl ⟨_, rfl⟩
    · exact .inl ⟨_, rfl⟩
    · exact .inr hf
  cases h with
  | record hr => exact hload hr
  | criteria _ hc => exact hload hc
  | settings => exact .inl ⟨_, rfl⟩

theorem runArguments_of_unprepared (host : Host) (h : Unprepared files env args f) :
    runArguments host files env args = failed host args (logLines args.verbose evaluatorSource []) f := by
  rw [runArguments, check_of_unprepared h]
  rfl

theorem runArguments_of_unreadable (host : Host) (h : Unprepared files env args f) (hf : f.IsUnreadable) :
    ∃ errors, runArguments host files env args = ⟨"", errors, .error f⟩ := by
  have hmembers : faultMembers? f = none := by cases hf <;> rfl
  rw [runArguments_of_unprepared host h, failed, hmembers]
  exact ⟨_, rfl⟩

theorem runArguments_of_reported (host : Host) (h : Reported files env args f) :
    ∃ errors members, faultMembers? f = some members ∧
      runArguments host files env args = printing host [failureText args f.text members] errors .invalid := by
  cases h with
  | unprepared h hf =>
    obtain ⟨members, hm⟩ := h.members_or_unreadable.resolve_right hf
    rw [runArguments_of_unprepared host h, failed, hm]
    exact ⟨_, members, rfl, rfl⟩
  | refused h he =>
    obtain ⟨r, rfl⟩ := h.refusal_of_error (.inr he)
    rw [runArguments, check_of_prepared h, he]
    exact ⟨_, _, rfl, rfl⟩

section
variable {e : Explanation}

/-- A verdict in words shows in the first line, whatever comes of the summary. -/
theorem runArguments_of_explained_words (hhost : host.IsSound) (hjson : args.json = false)
    (h : Explained files env args e) :
    shownVerdict? false (runArguments host files env args).output = some e.eligible ∧
      (runArguments host files env args).ending =
        if args.explain then (host.encode (e.text ++ "\n")).map fun _ => .ofVerdict e.eligible
        else .ok (.ofVerdict e.eligible) := by
  obtain ⟨record, criteria, settings, h, he⟩ := h
  rw [runArguments, check_of_prepared h, he]
  show shownVerdict? false (succeeded host args _ criteria e).output = _ ∧ (succeeded host args _ criteria e).ending = _
  rw [succeeded, verdictTexts, hjson, if_neg Bool.false_ne_true]
  obtain ⟨output, hshown, hprinting⟩ := exists_printing_plainTexts hhost args e
    (logLines args.verbose evaluatorSource (explain settings record criteria).log) (.ofVerdict e.eligible)
  show shownVerdict? false (printing host _ _ _).output = _ ∧ (printing host _ _ _).ending = _
  rw [hprinting]
  exact ⟨hshown, rfl⟩

/-- A verdict in JSON is printed in full or, where a value cannot be dumped, not at all. -/
theorem runArguments_of_explained_json (hhost : host.IsSound) (hjson : args.json = true)
    (h : Explained files env args e) :
    (∃ f, (e.outcomes.map Outcome.resolved).mapM host.dump = .error f ∧
      (runArguments host files env args).output = "" ∧ (runArguments host files env args).ending = .error f) ∨
    ∃ trees, (e.outcomes.map Outcome.resolved).mapM host.dump = .ok trees ∧
      shownVerdict? true (runArguments host files env args).output = some e.eligible ∧
      (runArguments host files env args).ending = .ok (.ofVerdict e.eligible) := by
  obtain ⟨record, criteria, settings, h, he⟩ := h
  have hr := Document.loaded_of_load h.record
  have hc := Document.loaded_of_load h.criteria
  have hrun : ∃ errors, runArguments host files env args = succeeded host args errors criteria e := by
    rw [runArguments, check_of_prepared h, he]
    exact ⟨_, rfl⟩
  obtain ⟨errors, hrun⟩ := hrun
  rw [hrun, succeeded, verdictTexts, hjson, if_pos rfl]
  rcases exists_verdictJson hhost args hr hc he with ⟨f, hdump, hverdict⟩ | ⟨trees, j, hdump, hverdict, hshown⟩
  · rw [hverdict]
    exact .inl ⟨f, hdump, rfl, rfl⟩
  · rw [hverdict]
    have hencode := encode_jsonText hhost j
    rcases printing_singleton host (jsonText j) errors (.ofVerdict e.eligible) with ⟨s, hs, hprinting⟩ | ⟨f, hf, -⟩
    · obtain rfl := Except.ok.inj (hencode.symm.trans hs)
      refine .inr ⟨trees, hdump, ?_⟩
      show shownVerdict? true (printing host [jsonText j] errors _).output = _ ∧
        (printing host [jsonText j] errors _).ending = _
      rw [hprinting]
      exact ⟨hshown, rfl⟩
    · exact nomatch hencode.symm.trans hf

/-- Where there is a verdict, it is shown and decides about the code, unless the command refuses. -/
theorem verdict_or_refuses (hhost : host.IsSound) (h : Explained files env args e) :
    ((∃ f, Refuses host files env args f ∧ (runArguments host files env args).ending = .error f) ∨
      (runArguments host files env args).ending = .ok (.ofVerdict e.eligible) ∧
        shownVerdict? args.json (runArguments host files env args).output = some e.eligible) ∧
    ∀ b, shownVerdict? args.json (runArguments host files env args).output = some b → b = e.eligible := by
  cases hjson : args.json with
  | false =>
    obtain ⟨hshown, hending⟩ := runArguments_of_explained_words hhost hjson h
    refine ⟨?_, fun b hb => Option.some.inj (hb.symm.trans hshown)⟩
    rw [hending, hshown]
    cases hexplain : args.explain with
    | false => exact .inr ⟨rfl, rfl⟩
    | true =>
      cases hs : host.encode (e.text ++ "\n") with
      | ok s => exact .inr ⟨rfl, rfl⟩
      | error f => exact .inl ⟨f, .summary hjson hexplain h hs, rfl⟩
  | true =>
    rcases runArguments_of_explained_json hhost hjson h with ⟨f, hdump, hout, hending⟩ | ⟨-, -, hshown, hending⟩
    · refine ⟨.inl ⟨f, .dump hjson h hdump, hending⟩, fun b hb => ?_⟩
      rw [hout, shownVerdict?_empty] at hb
      exact nomatch hb
    · exact ⟨.inr ⟨hending, hshown⟩, fun b hb => Option.some.inj (hb.symm.trans hshown)⟩

end

/-- A report shows no verdict, and leads to the code for bad input unless the command refuses. -/
theorem report_or_refuses (hhost : host.IsSound) (h : Reported files env args f) :
    ((∃ g, Refuses host files env args g ∧ (runArguments host files env args).ending = .error g) ∨
      (runArguments host files env args).ending = .ok .invalid ∧ ∃ members, faultMembers? f = some members ∧
        host.encode (failureText args f.text members) = .ok (runArguments host files env args).output) ∧
    shownVerdict? args.json (runArguments host files env args).output = none := by
  obtain ⟨errors, members, hm, hrun⟩ := runArguments_of_reported host h
  rw [hrun]
  rcases printing_singleton host (failureText args f.text members) errors .invalid with
    ⟨s, hs, hprinting⟩ | ⟨g, hg, hprinting⟩
  · rw [hprinting]
    exact ⟨.inr ⟨rfl, members, hm, hs⟩, shownVerdict?_failureText hhost hs⟩
  · rw [hprinting]
    obtain ⟨hjson, hg'⟩ := (encode_failureText_eq_error_iff hhost).1 hg
    exact ⟨.inl ⟨g, .report hjson h hg', rfl⟩, shownVerdict?_empty _⟩

theorem ending_of_refuses (hhost : host.IsSound) (h : Refuses host files env args f) :
    (runArguments host files env args).ending = .error f := by
  cases h with
  | dump hjson he hdump =>
    rcases runArguments_of_explained_json hhost hjson he with ⟨g, hg, -, hending⟩ | ⟨trees, htrees, -⟩
    · rw [hending, Except.error.inj (hg.symm.trans hdump)]
    · exact nomatch htrees.symm.trans hdump
  | summary hjson hexplain he hf =>
    rw [(runArguments_of_explained_words hhost hjson he).2, if_pos hexplain, hf]
    rfl
  | @report g f hjson hr hf =>
    obtain ⟨errors, members, -, hrun⟩ := runArguments_of_reported host hr
    rw [hrun, printing, put, (encode_failureText_eq_error_iff hhost).2 ⟨hjson, hf⟩]
    rfl

/-- The ways in which a command with its arguments ends. -/
inductive Ends (host : Host) (files : Files) (env : Environment) (args : Arguments) (t : Transcript) : Prop where
  | unreadable {f : Fault} : Unprepared files env args f → f.IsUnreadable → t.ending = .error f →
    Ends host files env args t
  | refused {f : Fault} : Refuses host files env args f → t.ending = .error f → Ends host files env args t
  | reported {f : Fault} {members : List (Text × Json)} : Reported files env args f → t.ending = .ok .invalid →
    faultMembers? f = some members → host.encode (failureText args f.text members) = .ok t.output →
    shownVerdict? args.json t.output = none → Ends host files env args t
  | explained {e : Explanation} : Explained files env args e → t.ending = .ok (.ofVerdict e.eligible) →
    shownVerdict? args.json t.output = some e.eligible → Ends host files env args t

theorem runArguments_ends (hhost : host.IsSound) (files : Files) (env : Environment) (args : Arguments) :
    Ends host files env args (runArguments host files env args) := by
  rcases unreadable_or_reported_or_explained files env args with ⟨f, hu, hf⟩ | ⟨f, hr⟩ | ⟨e, he⟩
  · obtain ⟨errors, hrun⟩ := runArguments_of_unreadable host hu hf
    exact .unreadable hu hf (by rw [hrun])
  · obtain ⟨⟨g, hrefuses, hending⟩ | ⟨hending, members, hm, hout⟩, hshown⟩ := report_or_refuses hhost hr
    · exact .refused hrefuses hending
    · exact .reported hr hending hm hout hshown
  · obtain ⟨⟨g, hrefuses, hending⟩ | ⟨hending, hshown⟩, -⟩ := verdict_or_refuses hhost he
    · exact .refused hrefuses hending
    · exact .explained he hending hshown

theorem run_of_parse {argv : List Text} (h : Arguments.parse argv = .ok (some args)) :
    run host files env argv = runArguments host files env args := by
  rw [run, h]

/-- A command that has its arguments ends without an exit code exactly if one of the documents is unreadable or what is
to be printed is refused. Else it prints a verdict, or it reports what is wrong and ends with the code for bad input. -/
theorem run_breaks_down_iff_unreadable_or_refused (host : Host) (hhost : host.IsSound) (files : Files)
    (env : Environment) (argv : List Text) (args : Arguments) (h : Arguments.parse argv = .ok (some args)) :
    (∀ f, (run host files env argv).ending = .error f ↔
      Unprepared files env args f ∧ f.IsUnreadable ∨ Refuses host files env args f) ∧
    (∀ f, Reported files env args f → (args.json = true ∨ ∃ s, host.encode ("ERROR: " ++ f.text ++ "\n") = .ok s) →
      (run host files env argv).ending = .ok .invalid) ∧
    ∀ exit, (run host files env argv).ending = .ok exit →
      (∃ e, Explained files env args e ∧ exit = .ofVerdict e.eligible ∧
        shownVerdict? args.json (run host files env argv).output = some e.eligible) ∨
      exit = .invalid ∧ ∃ f members, Reported files env args f ∧ faultMembers? f = some members ∧
        host.encode (failureText args f.text members) = .ok (run host files env argv).output := by
  rw [run_of_parse h]
  have hends := runArguments_ends hhost files env args
  refine ⟨fun f => ⟨fun hend => ?_, ?_⟩, fun f hr hprints => ?_, fun exit hend => ?_⟩
  · cases hends with
    | unreadable hu hf hending => exact .inl (Except.error.inj (hending.symm.trans hend) ▸ ⟨hu, hf⟩)
    | refused hrefuses hending => exact .inr (Except.error.inj (hending.symm.trans hend) ▸ hrefuses)
    | reported _ hending | explained _ hending => exact nomatch hending.symm.trans hend
  · rintro (⟨hu, hf⟩ | hrefuses)
    · obtain ⟨errors, hrun⟩ := runArguments_of_unreadable host hu hf
      rw [hrun]
    · exact ending_of_refuses hhost hrefuses
  · -- the report is what is printed, and that is never refused in JSON
    obtain ⟨errors, members, -, hrun⟩ := runArguments_of_reported host hr
    rcases printing_singleton host (failureText args f.text members) errors .invalid with
      ⟨s, -, hprinting⟩ | ⟨g, hg, -⟩
    · rw [hrun, hprinting]
    · obtain ⟨hjson, hg⟩ := (encode_failureText_eq_error_iff hhost).1 hg
      rcases hprints with hjson' | ⟨s, hs⟩
      · exact nomatch hjson.symm.trans hjson'
      · exact nomatch hs.symm.trans hg
  · cases hends with
    | unreadable _ _ hending | refused _ hending => exact nomatch hending.symm.trans hend
    | reported hr hending hm hout => exact .inr ⟨Except.ok.inj (hend.symm.trans hending), _, _, hr, hm, hout⟩
    | explained he hending hshown => exact .inl ⟨_, he, Except.ok.inj (hend.symm.trans hending), hshown⟩

/-- A record that is missing is reported; one that is a directory leaves no exit code. -/
theorem run_breaks_down_iff_unreadable_or_refused_directory :
    let argv : List Text := ["--record", "r.json", "--criteria=c.json"]
    let args : Arguments := ⟨.ofText "r.json", .ofText "c.json", false, false, false, false⟩
    Host.standard.IsSound ∧ Arguments.parse argv = .ok (some args) ∧
      (run .standard (fun _ => .missing) [] argv).ending = .ok .invalid ∧
      (run .standard (fun _ => .directory) [] argv).ending = .error (.breakdown (.isDirectory "r.json")) := by
  intro argv args
  have hparse : Arguments.parse argv = .ok (some args) := by decide +kernel
  obtain ⟨-, hreported, -⟩ :=
    run_breaks_down_iff_unreadable_or_refused .standard Host.isSound_standard (fun _ => .missing) [] argv args hparse
  obtain ⟨hbroken, -, -⟩ :=
    run_breaks_down_iff_unreadable_or_refused .standard Host.isSound_standard (fun _ => .directory) [] argv args hparse
  have htext : args.record.text = "r.json" := by decide +kernel
  have hdirectory := (hbroken _).2 (.inl ⟨.record rfl, .isDirectory args.record.text⟩)
  rw [htext] at hdirectory
  have hmissing : Reported (fun _ => .missing) [] args (.breakdown (.missingFile .record args.record.text)) :=
    .unprepared (.record rfl) fun h => nomatch h
  have hprints : ∃ s, Host.standard.encode
      ("ERROR: " ++ (Fault.breakdown (.missingFile .record args.record.text)).text ++ "\n") = .ok s :=
    exists_eq_ok (by decide +kernel)
  exact ⟨Host.isSound_standard, hparse, hreported _ hmissing (.inr hprints), hdirectory⟩

theorem load_long_integer {n : ℤ} (hn : ¬IsShort n) (key : Text) (role : Role) (path : FilePath) (dates : Bool) :
    Document.load (fun _ => .file (String.ofList (chars compact 0 (.object [(key, .int n)]))).toUTF8.toList)
      role path dates = .error (.breakdown (.numeralTooLong (digitCount n.natAbs))) := by
  have hlong : Numeral.digitLimit < (Nat.toDigits 10 n.natAbs).length := Nat.not_le.1 hn
  have hread : read (Document.closing dates) (chars compact 0 (.object [(key, .int n)])) =
      .error (.numeralTooLong (digitCount n.natAbs)) := by
    rw [read_chars_self _ isPlain_compact, denote, denoteMembers, denote, integer, if_pos hlong]
    rfl
  rw [Document.load]
  show (Document.decode role path.text dates _ >>= _) = _
  rw [decode_printable (isPrintable_chars 0 _), Document.parse, hread]
  rfl

/-- A record that is a directory, one that is no UTF-8 and one with an integer of more digits than are read: for none
of them does the command end with an exit code. -/
theorem run_without_exit_on_unreadable_record :
    let argv : List Text := ["--record", "r.json", "--criteria", "c.json"]
    let long : Json := .object [("a", .int (10 ^ Numeral.digitLimit))]
    ∀ state ∈ [.directory, .file [0xff], .file (String.ofList (long.chars compact 0)).toUTF8.toList],
      ∀ host exit, (run host (fun _ => state) [] argv).ending ≠ .ok exit := by
  intro argv long
  let args : Arguments := ⟨.ofText "r.json", .ofText "c.json", false, false, false, false⟩
  have hparse : Arguments.parse argv = .ok (some args) := by decide +kernel
  have hnone {state : FileState} {f : Fault} (hf : f.IsUnreadable)
      (h : Document.load (fun _ => state) .record args.record false = .error f) (host : Host) (exit : Exit) :
      (run host (fun _ => state) [] argv).ending ≠ .ok exit := by
    have hrecord : Unprepared (fun _ => state) [] args f := .record h
    obtain ⟨errors, hrun⟩ := runArguments_of_unreadable host hrecord hf
    rw [run_of_parse hparse, hrun]
    exact fun hend => nomatch hend
  have hlong : ¬IsShort (10 ^ Numeral.digitLimit) := fun h => by
    have hlt := (Scaled.digitCount_le_iff (by decide)).1 h
    rw [Int.natAbs_pow, show (10 : ℤ).natAbs = 10 from rfl] at hlt
    exact lt_irrefl _ hlt
  have hload := load_long_integer hlong "a" .record args.record false
  simp only [List.forall_mem_cons]
  exact ⟨hnone (.isDirectory _) rfl, hnone (.notUtf8 _) rfl, hnone (.numeralTooLong _) hload, List.forall_mem_nil _⟩

end Command
end Criteria
