import Criteria.Explanation

namespace Criteria

/-- The environment and the settings that were read from it last. -/
structure Session where
  env : Environment
  settings? : Option Settings

inductive Request where
  /-- Variables are set, or removed. -/
  | setVariables (changes : List (String × Option Text))
  | dropSettings
  | readSettings
  | isEligible (record criteria : Value)
  | explain (record criteria : Value)

inductive Answer where
  | done
  | settings (outcome : Except Fault Settings)
  | verdict (run : Run Bool)
  | explanation (run : Run Explanation)

def Environment.set (env : Environment) (name : String) (value : Option Text) : Environment :=
  let others := env.filter fun e => e.1 != name
  match value with
  | some v => (name, v) :: others
  | none => others

namespace Session

def start : Session := ⟨[], none⟩

/-- The settings, read from the environment unless they are there. Settings that cannot be read are
not kept. -/
def need (s : Session) : Except Fault Settings × Session :=
  match s.settings? with
  | some settings => (.ok settings, s)
  | none =>
    match Settings.ofEnvironment s.env with
    | .ok settings => (.ok settings, { s with settings? := some settings })
    | .error r => (.error (.refusal r), s)

def withSettings {α : Type} (settings : Except Fault Settings) (f : Settings → Run α) : Run α :=
  match settings with
  | .ok settings => f settings
  | .error fault => .ofOutcome (.error fault)

def step (s : Session) : Request → Answer × Session
  | .setVariables changes =>
    (.done, { s with env := changes.foldl (fun env c => env.set c.1 c.2) s.env })
  | .dropSettings => (.done, { s with settings? := none })
  | .readSettings => (.settings s.need.1, s.need.2)
  | .isEligible record criteria =>
    (.verdict (withSettings s.need.1 fun settings => Criteria.isEligible settings record criteria),
      s.need.2)
  | .explain record criteria =>
    (.explanation (withSettings s.need.1 fun settings => Criteria.explain settings record criteria),
      s.need.2)

def run (s : Session) : List Request → List Answer
  | [] => []
  | r :: rs => (s.step r).1 :: (s.step r).2.run rs

end Session
end Criteria
