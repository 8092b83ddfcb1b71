import Criteria.Command

open Criteria

def readState (path : Text) : IO FileState := do
  match path.chars? with
  | none => return .missing
  | some cs =>
    try
      return .file (← IO.FS.readBinFile (String.ofList cs)).toList
    catch
      | .noFileOrDirectory .. => return .missing
      | .inappropriateType .. => return .directory
      | e => throw e

def readEnvironment : IO Environment :=
  [depthVariable, coerceVariable].filterMapM fun name => do
    return (← IO.getEnv name).map fun value => (name, ↑value)

def main (args : List String) : IO UInt32 := do
  let args : List Text := args.map Text.ofString
  let paths :=
    match Arguments.parse args with
    | .ok (some parsed) => [parsed.record, parsed.criteria]
    | _ => []
  let states ← paths.mapM fun path => do return (path, ← readState path.text)
  let files : Files := fun path => (states.lookup path).getD .missing
  let transcript := Command.run .standard files (← readEnvironment) args
  IO.eprint transcript.errors
  IO.print transcript.output
  match transcript.ending with
  | .ok exit => return UInt32.ofNat exit.code
  | .error fault =>
    IO.eprintln fault.text.escaped
    return 1
