import IdMint.Alphabet
import IdMint.CommandLine.Given

/-! The command that a command line and an environment ask for. A value on the command line counts
before one in the environment, and one after the command's name before one in front of it; a
variable of the environment that is consulted at all must be readable. -/
namespace IdMint.CommandLine

/-- What to do. -/
inductive Command where
  | sequential (count : Nat) (radix luhn : Bool)
  | short (count : Nat)
  | decode (id : String) (radix : Bool)
  | shuffle (alphabet : String) (seed : UInt64)
deriving DecidableEq, Repr

/-- A command and the settings that go with every command. -/
structure Arguments where
  node : Nat
  precision : Precision
  alphabet : String
  seed : UInt64
  worker : Nat
  command : Command
deriving DecidableEq, Repr

abbrev Environment : Type := List (String × String)

def Environment.get? (env : Environment) (name : String) : Option String :=
  (env.find? fun v => v.1 == name).map Prod.snd

def sharedFields : List Field := [.node, .precision, .alphabet, .seed, .worker]

def commandNames : List String := ["sequential", "short", "decode", "shuffle"]

/-- What is understood before a command. -/
def programForm : Form := ⟨sharedFields, [], "help" :: commandNames⟩

/-- What a command understands. The alphabet and the seed to shuffle stand by place, in the stead of
the shared ones. -/
def commandForm (name : String) : Form :=
  if name = "sequential" then ⟨[.count, .radix, .luhn] ++ sharedFields, [], []⟩
  else if name = "short" then ⟨[.count] ++ sharedFields, [], []⟩
  else if name = "decode" then ⟨[.radix] ++ sharedFields, [.subject], []⟩
  else ⟨[.node, .precision, .worker], [.symbols, .shuffleSeed], []⟩

/-- Every variable is readable that a level without a value of its own falls back on. -/
def Environment.isReadable (env : Environment) (form : Form) (g : Given) : Bool :=
  form.named.all fun f =>
    match f.envName?.bind env.get? with
    | none => true
    | some s => g.has f || f.accepts s

/-- The text of a field: from behind the command, before it, or the environment. -/
def lookup (outer inner : Given) (env : Environment) (f : Field) : Option String :=
  (inner.value? f).or ((outer.value? f).or (f.envName?.bind env.get?))

/-- The command that a level's words make up, once all places are filled. -/
def commandOf? (name : String) (g : Given) : Option Command :=
  let count := (((g.value? .count).bind readWord?).map UInt64.toNat).getD 1
  if name = "sequential" then
    if g.has .radix && g.has .luhn then none
    else some (.sequential count (g.has .radix) (g.has .luhn))
  else if name = "short" then some (.short count)
  else if name = "decode" then (g.value? .subject).map fun id => .decode id (g.has .radix)
  else do
    let alphabet ← g.value? .symbols
    let seed ← (g.value? .shuffleSeed).bind readWord?
    return .shuffle alphabet seed

def readCommand (env : Environment) (name : String) (words : List String) :
    Except Halt (Given × Command) := do
  let form := commandForm name
  let (inner, _) ← Given.scan form (.start form) false words
  let inner ← inner.settle
  if env.isReadable form inner then
    match commandOf? name inner with
    | some command => return (inner, command)
    | none => throw .misuse
  else throw .misuse

/-- Reads the words behind `help`: at most the name of one command. -/
def readHelp : List String → Halt
  | [] => .help
  | [name] => if programForm.commands.contains name then .help else .misuse
  | _ => .misuse

/-- The arguments that the texts of the fields make up; what has no text keeps its default. -/
def Arguments.ofTexts (get : Field → Option String) (command : Command) : Arguments where
  node := (((get .node).bind readWord?).map UInt64.toNat).getD 0
  precision := ((get .precision).bind Precision.ofName?).getD .second
  alphabet := (get .alphabet).getD Alphabet.standardText
  seed := ((get .seed).bind readWord?).getD 1
  worker := ((get .worker).bind readWorker?).getD 0
  command := command

def readArguments (env : Environment) (words : List String) : Except Halt Arguments := do
  match ← Given.scan programForm (.start programForm) false words with
  | (_, none) => throw .misuse
  | (outer, some (name, rest)) =>
    if name = "help" then throw (readHelp rest)
    let (inner, command) ← readCommand env name rest
    let outer ← outer.settle
    if env.isReadable programForm outer then
      return .ofTexts (lookup outer inner env) command
    else throw .misuse

end IdMint.CommandLine
