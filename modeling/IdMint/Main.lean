import IdMint.CommandLine.Program
import IdMint.Random
import Std.Time.DateTime.Timestamp

/-! The command line: reads the variables, the file `.env` here or in the nearest directory above,
the host's clock and its entropy, and prints what the library answers. -/
namespace IdMint.Main

open CommandLine

/-- The text of the nearest file of assignments, if one can be read. -/
def assignments : IO (Option String) := do
  for k in List.range (← IO.currentDir).components.length do
    try return some (← IO.FS.readFile (String.join (List.replicate k "../") ++ ".env"))
    catch _ => pure ()
  return none

/-- The variables of the settings and those that a file of assignments may mention, as far as they
are set. -/
def environment (file : Option String) : IO Environment := do
  let names := sharedFields.filterMap Field.envName? ++ Assignments.namesIn (file.getD "")
  let found ← names.mapM fun name => do return (← IO.getEnv name).map fun s => (name, s)
  return found.filterMap id

def elapsed : IO Nat := do
  let now := (← Std.Time.Timestamp.now).toMillisecondsSinceUnixEpoch.val.toNat
  let (ms, events) := Clock.sinceEpoch epochMillis now
  for event in events do
    IO.eprintln (event.level ++ " " ++ event.message)
  return ms

/-- A word from the host's entropy, or from the clock where there is none. -/
def seed : IO UInt64 := do
  try return Random.wordOfBytes (← IO.getRandomBytes 8).toList
  catch _ => return UInt64.ofNat (← elapsed)

/-- Goes on with a job until it is over. -/
partial def finish (word : Nat → UInt64) (j : Job) : IO Job := do
  if j.isOver then return j
  else finish word (j.step word (← elapsed))

def run (words : List String) : IO Report := do
  let file ← assignments
  match prepare (← environment file) file words with
  | .error halt => return .ofHalt halt
  | .ok job => return .ofJob (← finish (Random.stream (← seed)) job)

end IdMint.Main

/-- Prints the report of a run and leaves with its exit code. -/
def main (words : List String) : IO UInt32 := do
  let report ← IdMint.Main.run words
  IO.print report.stdout
  IO.eprint report.stderr
  return UInt32.ofNat report.exit
