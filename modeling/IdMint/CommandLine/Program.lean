import IdMint.CommandLine.Assignments
import IdMint.CommandLine.Job

/-! The program as a whole: from words and variables to a job, and from a finished job to what is
printed. -/
namespace IdMint.CommandLine

structure Report where
  exit : Nat
  stdout : String
  stderr : String
deriving DecidableEq, Repr

namespace Report

def unlines (lines : List String) : String := String.join (lines.map (· ++ "\n"))

/-- The report where no command was found. Help and the word on misuse are the texts of the parser
of arguments, and left out here. -/
def ofHalt : Halt → Report
  | .help => ⟨0, "", ""⟩
  | .version => ⟨0, "flakeid 0.1.0\n", ""⟩
  | .misuse => ⟨2, "", ""⟩

/-- The report of a job that is over. Lines written before a failure stay. -/
def ofJob (j : Job) : Report :=
  match j.failure with
  | none => ⟨0, unlines j.lines, ""⟩
  | some f => ⟨1, unlines j.lines, f.report⟩

end Report

/-- The job that words ask for, given the variables that are set and the text of a file of
assignments, if there is one. -/
def prepare (env : Environment) (assignments : Option String) (words : List String) :
    Except Halt Job := do
  let env := match assignments with
    | none => env
    | some text => Assignments.apply env text
  let arguments ← readArguments env words
  match Plan.ofArguments arguments with
  | .ok plan => return Job.start plan
  | .error f => return Job.failed f

end IdMint.CommandLine
