import Criteria.Session
import Mathlib.Data.List.Induction

namespace Criteria

namespace Request

/-- Requests that read the settings or are evaluated under them. -/
def NeedsSettings : Request → Prop
  | readSettings | isEligible .. | explain .. => True
  | setVariables _ | dropSettings => False

def answerUnder (settings : Settings) : Request → Answer
  | readSettings => .settings (.ok settings)
  | isEligible record criteria => .verdict (Criteria.isEligible settings record criteria)
  | explain record criteria => .explanation (Criteria.explain settings record criteria)
  | setVariables _ | dropSettings => .done

/-- What a request comes to where there are no settings. Nothing is evaluated, and nothing is logged. -/
def refusedWith (refusal : Refusal) : Request → Answer
  | readSettings => .settings (.error (.refusal refusal))
  | isEligible .. => .verdict (.ofOutcome (.error (.refusal refusal)))
  | explain .. => .explanation (.ofOutcome (.error (.refusal refusal)))
  | setVariables _ | dropSettings => .done

end Request

/-- The environment that a request leaves. -/
def Environment.changedBy (env : Environment) : Request → Environment
  | .setVariables changes => changes.foldl (fun env c => env.set c.1 c.2) env
  | _ => env

def Environment.after (env : Environment) (rs : List Request) : Environment :=
  rs.foldl changedBy env

theorem Settings.category_of_ofEnvironment {env : Environment} {refusal : Refusal}
    (h : Settings.ofEnvironment env = .error refusal) : refusal.category = .configuration := by
  unfold Settings.ofEnvironment at h
  dsimp only at h
  split at h
  · cases h
    rfl
  · split at h
    · exact nomatch h
    · cases h
      rfl

namespace Session

variable {env : Environment} {s : Session} {r : Request} {settings settings' : Settings} {refusal : Refusal}
  {history before before' : List Request}

def after (s : Session) (rs : List Request) : Session := rs.foldl (fun s r => (s.step r).2) s

@[simp] theorem after_nil (s : Session) : s.after [] = s := rfl

@[simp] theorem after_cons (s : Session) (r : Request) (rs : List Request) :
    s.after (r :: rs) = (s.step r).2.after rs := rfl

@[simp] theorem after_append (s : Session) (rs rs' : List Request) : s.after (rs ++ rs') = (s.after rs).after rs' :=
  List.foldl_append

theorem after_append_singleton (s : Session) (rs : List Request) (r : Request) :
    s.after (rs ++ [r]) = ((s.after rs).step r).2 := after_append s rs [r]

@[simp] theorem length_run (s : Session) (rs : List Request) : (s.run rs).length = rs.length := by
  induction rs generalizing s with
  | nil => rfl
  | cons r rs ih => simp [run, ih]

@[simp] theorem run_append (s : Session) (rs rs' : List Request) :
    s.run (rs ++ rs') = s.run rs ++ (s.after rs).run rs' := by
  induction rs generalizing s with
  | nil => rfl
  | cons r rs ih =>
    rw [List.cons_append, run, run, ih, List.cons_append]
    rfl

/-- A request is answered by the session that the requests before it leave. -/
theorem getElem?_run (s : Session) (before : List Request) (r : Request) (later : List Request) :
    (s.run (before ++ r :: later))[before.length]? = some ((s.after before).step r).1 := by
  simp [run]

/-- Settings come from before or from the environment, and are kept; or there are none, and nothing is. -/
theorem need_cases (s : Session) :
    (∃ settings,
      (s.settings? = some settings ∨ s.settings? = none ∧ Settings.ofEnvironment s.env = .ok settings) ∧
        s.need = (.ok settings, { s with settings? := some settings })) ∨
      ∃ refusal, s.settings? = none ∧ Settings.ofEnvironment s.env = .error refusal ∧
        s.need = (.error (.refusal refusal), s) := by
  obtain ⟨env, settings?⟩ := s
  cases settings? with
  | some settings => exact .inl ⟨settings, .inl rfl, rfl⟩
  | none =>
    cases hread : Settings.ofEnvironment env with
    | ok settings => exact .inl ⟨settings, .inr ⟨rfl, rfl⟩, by simp only [need, hread]⟩
    | error refusal => exact .inr ⟨refusal, rfl, rfl, by simp only [need, hread]⟩

@[simp] theorem need_env (s : Session) : s.need.2.env = s.env := by
  rcases need_cases s with ⟨_, _, hneed⟩ | ⟨_, _, _, hneed⟩ <;> rw [hneed]

theorem step_cases (s : Session) (hr : r.NeedsSettings) :
    (∃ settings,
      (s.settings? = some settings ∨ s.settings? = none ∧ Settings.ofEnvironment s.env = .ok settings) ∧
        s.step r = (r.answerUnder settings, { s with settings? := some settings })) ∨
      ∃ refusal, s.settings? = none ∧ Settings.ofEnvironment s.env = .error refusal ∧
        s.step r = (r.refusedWith refusal, s) := by
  rcases need_cases s with ⟨settings, hs, hneed⟩ | ⟨refusal, hs, hread, hneed⟩
  · refine .inl ⟨settings, hs, ?_⟩
    cases r with
    | setVariables | dropSettings => exact hr.elim
    | readSettings | isEligible | explain =>
      rw [step, hneed]
      rfl
  · refine .inr ⟨refusal, hs, hread, ?_⟩
    cases r with
    | setVariables | dropSettings => exact hr.elim
    | readSettings | isEligible | explain =>
      rw [step, hneed]
      rfl

theorem step_of_some (hr : r.NeedsSettings) (h : s.settings? = some settings) :
    s.step r = (r.answerUnder settings, s) := by
  rcases step_cases s hr with ⟨settings', hs | ⟨hs, -⟩, hstep⟩ | ⟨refusal, hs, -⟩
  · cases h.symm.trans hs
    rw [hstep, ← hs]
  · exact nomatch h.symm.trans hs
  · exact nomatch h.symm.trans hs

theorem step_of_ok (hr : r.NeedsSettings) (h : s.settings? = none)
    (hread : Settings.ofEnvironment s.env = .ok settings) :
    s.step r = (r.answerUnder settings, { s with settings? := some settings }) := by
  rcases step_cases s hr with ⟨settings', hs | ⟨-, hread'⟩, hstep⟩ | ⟨refusal, -, hread', -⟩
  · exact nomatch h.symm.trans hs
  · cases hread.symm.trans hread'
    exact hstep
  · exact nomatch hread.symm.trans hread'

theorem answer_of_some (hr : r.NeedsSettings) (h : (s.step r).2.settings? = some settings) :
    (s.step r).1 = r.answerUnder settings := by
  rcases step_cases s hr with ⟨settings', -, hstep⟩ | ⟨refusal, hs, -, hstep⟩
  · rw [hstep] at h ⊢
    cases h
    rfl
  · rw [hstep, hs] at h
    exact nomatch h

theorem step_of_none (hr : r.NeedsSettings) (h : (s.step r).2.settings? = none) :
    s.settings? = none ∧ ∃ refusal, Settings.ofEnvironment s.env = .error refusal ∧
      s.step r = (r.refusedWith refusal, s) := by
  rcases step_cases s hr with ⟨settings, -, hstep⟩ | ⟨refusal, hs, hread, hstep⟩
  · rw [hstep] at h
    exact nomatch h
  · exact ⟨hs, refusal, hread, hstep⟩

@[simp] theorem step_env (s : Session) (r : Request) : (s.step r).2.env = s.env.changedBy r := by
  cases r with
  | setVariables | dropSettings => rfl
  | readSettings | isEligible | explain => exact need_env s

@[simp] theorem env_after (s : Session) (rs : List Request) : (s.after rs).env = s.env.after rs := by
  induction rs using List.reverseRecOn with
  | nil => rfl
  | append_singleton rs r ih =>
    simp [ih, Environment.after]

/-- The request that followed `before` was one for settings, the environment had them then, and they have not been
dropped since. -/
def FoundAfter (env : Environment) (history before : List Request) (settings : Settings) : Prop :=
  ∃ r rs, history = before ++ r :: rs ∧ r.NeedsSettings ∧ .dropSettings ∉ rs ∧
    Settings.ofEnvironment (env.after before) = .ok settings

/-- The settings that were found first. -/
def InForce (env : Environment) (history : List Request) (settings : Settings) : Prop :=
  ∃ before, FoundAfter env history before settings ∧
    ∀ before' settings', FoundAfter env history before' settings' → before.length ≤ before'.length

theorem FoundAfter.length_lt (h : FoundAfter env history before settings) :
    before.length < history.length := by
  obtain ⟨r, rs, rfl, -⟩ := h
  rw [List.length_append, List.length_cons]
  omega

theorem FoundAfter.eq_of_length (h : FoundAfter env history before settings)
    (h' : FoundAfter env history before' settings') (hlen : before.length = before'.length) :
    settings = settings' := by
  obtain ⟨r, rs, rfl, -, -, hread⟩ := h
  obtain ⟨r', rs', heq, -, -, hread'⟩ := h'
  rw [(List.append_inj heq hlen).1, hread'] at hread
  cases hread
  rfl

theorem InForce.eq (h : InForce env history settings) (h' : InForce env history settings') :
    settings = settings' := by
  obtain ⟨before, hfound, hfirst⟩ := h
  obtain ⟨before', hfound', hfirst'⟩ := h'
  exact hfound.eq_of_length hfound' (Nat.le_antisymm (hfirst _ _ hfound') (hfirst' _ _ hfound))

theorem foundAfter_append_singleton :
    FoundAfter env (history ++ [r]) before settings ↔
      r ≠ .dropSettings ∧ FoundAfter env history before settings ∨
        before = history ∧ r.NeedsSettings ∧ Settings.ofEnvironment (env.after history) = .ok settings := by
  constructor
  · rintro ⟨q, rs, heq, hq, hdrop, hread⟩
    rcases List.eq_nil_or_concat rs with rfl | ⟨rs, q', rfl⟩
    · obtain ⟨rfl, hr⟩ := List.append_inj' heq rfl
      cases hr
      exact .inr ⟨rfl, hq, hread⟩
    · rw [List.concat_eq_append, ← List.cons_append, ← List.append_assoc] at heq
      obtain ⟨rfl, hr⟩ := List.append_inj' heq rfl
      cases hr
      rw [List.concat_eq_append, List.mem_append, List.mem_singleton, not_or] at hdrop
      exact .inl ⟨Ne.symm hdrop.2, q, rs, rfl, hq, hdrop.1, hread⟩
  · rintro (⟨hr, q, rs, rfl, hq, hdrop, hread⟩ | ⟨rfl, hr, hread⟩)
    · refine ⟨q, rs ++ [r], by rw [List.append_assoc, List.cons_append], hq, ?_, hread⟩
      rw [List.mem_append, List.mem_singleton, not_or]
      exact ⟨hdrop, Ne.symm hr⟩
    · exact ⟨r, [], rfl, hr, List.not_mem_nil, hread⟩

/-- Settings in force stay so until they are dropped. What is found later does not count. -/
theorem InForce.append (h : InForce env history settings) {rs : List Request} (hdrop : .dropSettings ∉ rs) :
    InForce env (history ++ rs) settings := by
  induction rs generalizing history with
  | nil => rwa [List.append_nil]
  | cons r rs ih =>
    rw [List.mem_cons, not_or] at hdrop
    obtain ⟨before, hfound, hfirst⟩ := h
    rw [List.append_cons]
    refine ih ⟨before, foundAfter_append_singleton.2 (.inl ⟨Ne.symm hdrop.1, hfound⟩), fun before' settings' h => ?_⟩
      hdrop.2
    rcases foundAfter_append_singleton.1 h with ⟨-, h⟩ | ⟨rfl, -⟩
    · exact hfirst _ _ h
    · exact Nat.le_of_lt hfound.length_lt

/-- The settings that a session keeps are the ones in force, if any were found since the last drop. -/
def Kept (env : Environment) (history : List Request) : Option Settings → Prop
  | some settings => InForce env history settings
  | none => ∀ before settings, ¬FoundAfter env history before settings

theorem Kept.setVariables {settings? : Option Settings} (h : Kept env history settings?)
    (changes : List (String × Option Text)) :
    Kept env (history ++ [.setVariables changes]) settings? := by
  cases settings? with
  | some settings => exact InForce.append h (by simp)
  | none =>
    intro before settings hfound
    rcases foundAfter_append_singleton.1 hfound with ⟨-, hfound⟩ | ⟨-, hr, -⟩
    · exact h _ _ hfound
    · exact hr

theorem Kept.dropSettings (env : Environment) (history : List Request) :
    Kept env (history ++ [.dropSettings]) none := by
  intro before settings hfound
  rcases foundAfter_append_singleton.1 hfound with ⟨hr, -⟩ | ⟨-, hr, -⟩
  · exact hr rfl
  · exact hr

theorem inForce_append_singleton (hr : r.NeedsSettings)
    (hnone : ∀ before settings, ¬FoundAfter env history before settings) :
    InForce env (history ++ [r]) settings ↔ Settings.ofEnvironment (env.after history) = .ok settings := by
  constructor
  · rintro ⟨before, hfound, -⟩
    rcases foundAfter_append_singleton.1 hfound with ⟨-, hfound⟩ | ⟨-, -, hread⟩
    · exact absurd hfound (hnone _ _)
    · exact hread
  · intro hread
    refine ⟨history, foundAfter_append_singleton.2 (.inr ⟨rfl, hr, hread⟩), fun before' settings' hfound => ?_⟩
    rcases foundAfter_append_singleton.1 hfound with ⟨-, hfound⟩ | ⟨rfl, -⟩
    · exact absurd hfound (hnone _ _)
    · exact Nat.le_refl _

theorem Kept.needsSettings (hr : r.NeedsSettings) (henv : s.env = env.after history)
    (h : Kept env history s.settings?) : Kept env (history ++ [r]) (s.step r).2.settings? := by
  rcases step_cases s hr with ⟨settings, hs | ⟨hs, hread⟩, hstep⟩ | ⟨refusal, hs, hread, hstep⟩
  · have hdrop : .dropSettings ∉ [r] := by
      rw [List.mem_singleton]
      rintro rfl
      exact hr
    rw [hs] at h
    rw [hstep]
    exact InForce.append h hdrop
  · rw [hs] at h
    rw [hstep]
    exact (inForce_append_singleton hr h).2 (henv ▸ hread)
  · rw [hs] at h
    rw [hstep, hs]
    intro before settings hfound
    rcases foundAfter_append_singleton.1 hfound with ⟨-, hfound⟩ | ⟨-, -, hread'⟩
    · exact h _ _ hfound
    · rw [henv, hread'] at hread
      exact nomatch hread

theorem Kept.step (henv : s.env = env.after history) (h : Kept env history s.settings?) (r : Request) :
    Kept env (history ++ [r]) (s.step r).2.settings? := by
  cases r with
  | setVariables changes => exact h.setVariables changes
  | dropSettings => exact .dropSettings env history
  | readSettings | isEligible | explain => exact h.needsSettings trivial henv

theorem kept_after (env : Environment) (history : List Request) :
    Kept env history (after ⟨env, none⟩ history).settings? := by
  induction history using List.reverseRecOn with
  | nil => exact fun _ _ h => nomatch h.length_lt
  | append_singleton history r ih =>
    -- the environment of the session is what the changes of the history make of the first one
    rw [after_append_singleton]
    exact ih.step (env_after _ history) r

theorem inForce_iff : InForce env history settings ↔ (after ⟨env, none⟩ history).settings? = some settings := by
  have hkept := kept_after env history
  cases hs : (after ⟨env, none⟩ history).settings? with
  | some settings' =>
    rw [hs] at hkept
    constructor
    · intro h
      rw [h.eq hkept]
    · rintro ⟨⟩
      exact hkept
  | none =>
    rw [hs] at hkept
    exact ⟨fun ⟨before, hfound, _⟩ => absurd hfound (hkept _ _), nofun⟩

theorem not_inForce_iff : (¬∃ settings, InForce env history settings) ↔
    (after ⟨env, none⟩ history).settings? = none := by
  simp only [inForce_iff, not_exists, Option.eq_none_iff_forall_ne_some, ne_eq]

/-- A request for settings, or for an evaluation, is answered under the settings in force; where none are, it is
refused for what the environment has now, and nothing is kept. Settings in force are kept until they are dropped,
whatever is asked in between. Where there were none before, the environment is read again. What is evaluated makes
no difference to the session: the request leaves what reading the settings leaves, which is no change once there
are any. -/
theorem answer_under_inForce (env : Environment) (before : List Request) (r : Request) (later : List Request)
    (hr : r.NeedsSettings) :
    let s := after ⟨env, none⟩ before
    let answer := (run ⟨env, none⟩ (before ++ r :: later))[before.length]?
    (∀ settings, InForce env (before ++ [r]) settings → answer = some (r.answerUnder settings)) ∧
      ((¬∃ settings, InForce env (before ++ [r]) settings) →
        ∃ refusal, Settings.ofEnvironment (env.after before) = .error refusal ∧
          refusal.category = .configuration ∧ answer = some (r.refusedWith refusal) ∧
          s.settings? = none ∧ (s.step r).2 = s) ∧
      (∀ settings, InForce env before settings → ∀ rs, .dropSettings ∉ rs →
        (s.after rs).settings? = some settings) ∧
      ((¬∃ settings, InForce env before settings) → ∀ settings,
        Settings.ofEnvironment (env.after before) = .ok settings →
          answer = some (r.answerUnder settings) ∧ (s.step r).2.settings? = some settings) ∧
      (s.step r).2 = (s.step .readSettings).2 ∧
      ∀ settings, InForce env before settings → (s.step r).2 = s := by
  intro s answer
  have hanswer : answer = some (s.step r).1 := getElem?_run ⟨env, none⟩ before r later
  have henv : s.env = env.after before := env_after ⟨env, none⟩ before
  refine ⟨fun settings h => ?_, fun h => ?_, fun settings h rs hdrop => ?_, fun h settings hread => ?_, ?_,
    fun settings h => ?_⟩
  · rw [inForce_iff, after_append_singleton] at h
    rw [hanswer, answer_of_some hr h]
  · rw [not_inForce_iff, after_append_singleton] at h
    obtain ⟨hs, refusal, hread, hstep⟩ := step_of_none hr h
    refine ⟨refusal, henv ▸ hread, Settings.category_of_ofEnvironment hread, ?_, hs, ?_⟩
    · rw [hanswer, hstep]
    · rw [hstep]
  · rw [← inForce_iff.1 (h.append hdrop), after_append]
  · rw [hanswer, step_of_ok hr (not_inForce_iff.1 h) (henv ▸ hread)]
    exact ⟨rfl, rfl⟩
  · cases r with
    | setVariables | dropSettings => exact hr.elim
    | readSettings | isEligible | explain => rfl
  · rw [step_of_some hr (inForce_iff.1 h)]

/-- A depth limit of zero is refused, and read again once the variable is removed, by a request whose evaluation
fails. The settings then outlive the removal of the other variable, until they are dropped. -/
theorem answer_under_inForce_after_refusal :
    let record : Value := .mapping [(.text "a", .text "5")]
    let check : Request := .isEligible record (.mapping [(.text "a", .int 5)])
    let failing : Request := .explain record (.mapping [(.text "a", .mapping [(.text "near", .int 5)])])
    let unreadable : List Request := [.setVariables [(depthVariable, some "0"), (coerceVariable, some "1")]]
    let readable := unreadable ++ [check, .setVariables [(depthVariable, none)]]
    let changed := readable ++ [failing, .setVariables [(coerceVariable, none)]]
    let dropped := changed ++ [.dropSettings]
    let coercing : Settings := ⟨100, true, by decide⟩
    let requests := dropped ++ [check]
    (check.NeedsSettings ∧ failing.NeedsSettings) ∧
      ((¬∃ settings, InForce [] (unreadable ++ [check]) settings) ∧
        (run start requests)[1]? = some (check.refusedWith (.badDepth "0"))) ∧
      (InForce [] (readable ++ [failing]) coercing ∧
        (run start requests)[3]? = some (failing.answerUnder coercing)) ∧
      (InForce [] (changed ++ [check]) coercing ∧
        (run start (changed ++ [check]))[5]? = some (check.answerUnder coercing)) ∧
      InForce [] (dropped ++ [check]) .default ∧
        (run start requests)[6]? = some (check.answerUnder .default) := by
  intro record check failing unreadable readable changed dropped coercing requests
  have hnone : ¬∃ settings, InForce [] (unreadable ++ [check]) settings :=
    not_inForce_iff.2 (by decide +kernel)
  have hbuilt : InForce [] (readable ++ [failing]) coercing := inForce_iff.2 (by decide +kernel)
  have hkept : InForce [] (changed ++ [check]) coercing := inForce_iff.2 (by decide +kernel)
  have hfresh : InForce [] (dropped ++ [check]) .default := inForce_iff.2 (by decide +kernel)
  have hread : Settings.ofEnvironment (Environment.after [] unreadable) = .error (.badDepth "0") := by
    decide +kernel
  obtain ⟨-, hrefused, -⟩ := answer_under_inForce [] unreadable check (requests.drop 2) trivial
  obtain ⟨refusal, hread', -, hanswer, -⟩ := hrefused hnone
  cases hread.symm.trans hread'
  exact ⟨⟨trivial, trivial⟩, ⟨hnone, hanswer⟩,
    ⟨hbuilt, (answer_under_inForce [] readable failing (requests.drop 4) trivial).1 _ hbuilt⟩,
    ⟨hkept, (answer_under_inForce [] changed check [] trivial).1 _ hkept⟩,
    hfresh, (answer_under_inForce [] dropped check [] trivial).1 _ hfresh⟩

end Session
end Criteria
