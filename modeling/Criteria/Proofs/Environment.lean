import Criteria.Fault.Report
import Criteria.Proofs.IntegerNumeral
import Criteria.Settings

namespace Criteria.Settings
variable {env : Environment} {n : ℤ}

/-- The environment sets the depth limit to an integer: by a numeral, or to the default by saying nothing. -/
inductive SetsDepth (env : Environment) : ℤ → Prop where
  | absent : env.lookup depthVariable = none → SetsDepth env 100
  | given {cs : List Char} {n : ℤ} : env.lookup depthVariable = some (.ofChars cs) → Numeral.DenotesInteger cs n →
    SetsDepth env n

def depthText (env : Environment) : Text := (env.lookup depthVariable).getD (Nat.repr default.maxDepth)

def depth? (env : Environment) : Option ℤ := (depthText env).chars?.bind Numeral.integer?

theorem setsDepth_iff : SetsDepth env n ↔ depth? env = some n := by
  have hdefault : Numeral.integer? (Nat.repr default.maxDepth).toList = some 100 := by decide +kernel
  unfold depth?
  constructor
  · rintro (hnone | ⟨hsome, hdenotes⟩)
    · simpa [depthText, hnone] using hdefault
    · simpa [depthText, hsome] using Numeral.integer?_eq_some_iff.2 hdenotes
  · intro h
    cases hlookup : env.lookup depthVariable with
    | none =>
      rw [depthText, hlookup, Option.getD_none, Text.chars?_ofString] at h
      obtain rfl : 100 = n := Option.some.inj (hdefault.symm.trans h)
      exact .absent hlookup
    | some text =>
      rw [depthText, hlookup, Option.getD_some] at h
      obtain ⟨cs, hcs, h⟩ := Option.bind_eq_some_iff.1 h
      rw [Text.chars?_eq_some_iff.1 hcs] at hlookup
      exact .given hlookup (Numeral.integer?_eq_some_iff.1 h)

theorem SetsDepth.unique {n' : ℤ} (h : SetsDepth env n) (h' : SetsDepth env n') : n = n' :=
  Option.some.inj ((setsDepth_iff.1 h).symm.trans (setsDepth_iff.1 h'))

theorem ofEnvironment_of_none (h : depth? env = none) :
    ofEnvironment env = .error (.badDepth (depthText env)) := by
  rw [depth?, depthText] at h
  rw [depthText]
  simp only [ofEnvironment, h]

theorem ofEnvironment_of_some (h : depth? env = some n) :
    ofEnvironment env = if h : 1 ≤ n.toNat ∧ n.toNat ≤ depthBound then
      .ok ⟨n.toNat, env.lookup coerceVariable == some "1", h⟩ else .error (.badDepth (depthText env)) := by
  rw [depth?, depthText] at h
  rw [depthText]
  simp only [ofEnvironment, h]

/-- Settings with the depth limit of the environment, or a refusal where it sets none within bounds. -/
theorem ofEnvironment_cases (env : Environment) :
    (∃ settings, ofEnvironment env = .ok settings ∧ SetsDepth env settings.maxDepth ∧
      settings.coerce = (env.lookup coerceVariable == some "1")) ∨
    ofEnvironment env = .error (.badDepth (depthText env)) ∧ ∀ n, SetsDepth env n → ¬(1 ≤ n ∧ n ≤ depthBound) := by
  cases hread : depth? env with
  | none => exact .inr ⟨ofEnvironment_of_none hread, fun n hn => nomatch hread.symm.trans (setsDepth_iff.1 hn)⟩
  | some n =>
    rw [ofEnvironment_of_some hread]
    have hn : SetsDepth env n := setsDepth_iff.2 hread
    by_cases hbounds : 1 ≤ n.toNat ∧ n.toNat ≤ depthBound
    · have hcast : (n.toNat : ℤ) = n := Int.toNat_of_nonneg (by omega)
      refine .inl ⟨_, dif_pos hbounds, ?_, rfl⟩
      show SetsDepth env n.toNat
      rwa [hcast]
    · refine .inr ⟨dif_neg hbounds, fun n' hn' => ?_⟩
      rw [← hn.unique hn']
      omega

theorem exists_lookup_of_refused (h : ∀ n, SetsDepth env n → ¬(1 ≤ n ∧ n ≤ depthBound)) :
    env.lookup depthVariable = some (depthText env) := by
  cases hlookup : env.lookup depthVariable with
  | none => exact absurd ⟨by decide, by decide⟩ (h 100 (.absent hlookup))
  | some text => rw [depthText, hlookup, Option.getD_some]

/-- The environment gives settings exactly if it sets a depth limit within bounds, by any numeral of the integer or by
saying nothing. That is the limit of the settings, and texts count as numbers if the switch says `1`. Whatever else is
said of the limit is refused as a bad setting of it. -/
theorem ofEnvironment_isOk_iff_setsDepth (env : Environment) :
    ((∃ settings, ofEnvironment env = .ok settings) ↔ ∃ n, SetsDepth env n ∧ 1 ≤ n ∧ n ≤ 120) ∧
    (∀ settings, ofEnvironment env = .ok settings →
      (∀ n, SetsDepth env n ↔ n = settings.maxDepth) ∧
      (settings.coerce = true ↔ env.lookup coerceVariable = some "1")) ∧
    (∀ refusal, ofEnvironment env = .error refusal → refusal.category = .configuration ∧
      ("setting", .text depthVariable) ∈ refusal.report.entries ∧
      ∃ text, env.lookup depthVariable = some text ∧ refusal = .badDepth text) := by
  rcases ofEnvironment_cases env with ⟨settings, hok, hdepth, hcoerce⟩ | ⟨herror, hnone⟩
  · rw [hok]
    refine ⟨iff_of_true ⟨settings, rfl⟩ ⟨_, hdepth, ?_⟩, ?_, nofun⟩
    · have hbounds := settings.inBounds
      rw [depthBound] at hbounds
      omega
    · rintro _ ⟨⟩
      refine ⟨fun n => ⟨fun hn => hn.unique hdepth, fun hn => hn ▸ hdepth⟩, ?_⟩
      rw [hcoerce, beq_iff_eq]
  · rw [herror]
    refine ⟨iff_of_false nofun ?_, nofun, ?_⟩
    · rintro ⟨n, hn, hbounds⟩
      exact hnone n hn hbounds
    · rintro _ ⟨⟩
      exact ⟨rfl, by simp [Report.entries, Report.fields, Refusal.report, Refusal.category, Category.detailName?],
        _, exists_lookup_of_refused hnone, rfl⟩

/-- A numeral with white space around it, a sign, an underscore and digits of two scripts; and one with two underscores
in a row. -/
theorem ofEnvironment_isOk_iff_setsDepth_two_scripts :
    (∃ settings, ofEnvironment [(depthVariable, "\u2003+1_\u0662\n"), (coerceVariable, "1")] = .ok settings ∧
      settings.maxDepth = 12 ∧ settings.coerce = true) ∧
    ∃ refusal, ofEnvironment [(depthVariable, "1__2")] = .error refusal ∧ refusal.category = .configuration := by
  have hdepth : SetsDepth [(depthVariable, "\u2003+1_\u0662\n"), (coerceVariable, "1")] 12 :=
    setsDepth_iff.2 (by decide +kernel)
  obtain ⟨haccepts, hsettings, -⟩ :=
    ofEnvironment_isOk_iff_setsDepth [(depthVariable, "\u2003+1_\u0662\n"), (coerceVariable, "1")]
  obtain ⟨settings, hok⟩ := haccepts.2 ⟨12, hdepth, by decide, by decide⟩
  obtain ⟨hlimit, hcoerce⟩ := hsettings settings hok
  have herror : ofEnvironment [(depthVariable, "1__2")] = .error (.badDepth "1__2") := by decide +kernel
  obtain ⟨-, -, hrefused⟩ := ofEnvironment_isOk_iff_setsDepth [(depthVariable, "1__2")]
  exact ⟨⟨settings, hok, by exact_mod_cast ((hlimit 12).1 hdepth).symm, hcoerce.2 (by decide +kernel)⟩,
    _, herror, (hrefused _ herror).1⟩

end Criteria.Settings
