import Criteria.Text
import Criteria.Text.Split

namespace Criteria

/-- A path as it is followed: from the root or from the working directory, step by step. -/
structure FilePath where
  /-- What an absolute path starts with, one slash or two. -/
  root : Text
  steps : List Text
deriving DecidableEq

namespace FilePath

/-- Steps that lead on. Empty ones and single points do not. -/
def stepsOf (path : Text) : List Text :=
  (Text.splitOn (.char '/') path).filter fun step => !step.isEmpty && step != "."

/-- Exactly two slashes at the start are kept, as is one; more count as one. -/
def ofText (path : Text) : FilePath :=
  let slashes := (path.takeWhile (· == .char '/')).length
  ⟨if slashes = 0 then [] else if slashes = 2 then "//" else "/", stepsOf path⟩

def text (p : FilePath) : Text :=
  let path := p.root ++ Text.join "/" p.steps
  if path.isEmpty then "." else path

end FilePath

inductive FileState where
  | missing
  | directory
  | file (content : List UInt8)
deriving DecidableEq

/-- What is known of a file system: the state of every path. -/
abbrev Files := FilePath → FileState

/-- The files below the working directory, each under the steps that lead to it. -/
structure FileTree where
  files : List (List Text × List UInt8)

namespace FileTree

def ofFiles (files : List (Text × List UInt8)) : FileTree :=
  ⟨files.map fun (name, content) => (FilePath.stepsOf name, content)⟩

inductive Node where
  | file (content : List UInt8)
  /-- A directory below the working directory. -/
  | directory (steps : List Text)
  /-- The root and what lies above the working directory. -/
  | outside

def node? (tree : FileTree) (steps : List Text) : Option Node :=
  match tree.files.lookup steps with
  | some content => some (.file content)
  | none =>
    if steps.isEmpty || tree.files.any fun f => steps.isPrefixOf f.1 then some (.directory steps)
    else none

/-- One step from a file or directory. Of what lies outside no names are known. -/
def next? (tree : FileTree) : Node → Text → Option Node
  | .file _, _ => none
  | .directory steps, step =>
    if step = ".." then
      some (if steps.isEmpty then .outside else .directory steps.dropLast)
    else tree.node? (steps ++ [step])
  | .outside, step => if step = ".." then some .outside else none

def state (tree : FileTree) : Files := fun path =>
  match path.steps.foldlM tree.next? (if path.root.isEmpty then .directory [] else .outside) with
  | none => .missing
  | some (.file content) => .file content
  | some _ => .directory

end FileTree
end Criteria
