import IdMint.CommandLine.Field

/-! What the words of a command line say, read from left to right. A word after an option is its
value even when it names a command, but not when it starts with a hyphen. A value that stands apart
from its option is judged only when the next option or place comes up, or at the end. -/
namespace IdMint.CommandLine

inductive Halt where
  | help
  | version
  | misuse
deriving DecidableEq, Repr

/-- What a command, or the program before its command, understands. -/
structure Form where
  /-- Fields set by name. -/
  named : List Field
  /-- Fields set by place, in order. -/
  placed : List Field
  /-- Names of commands, if one may follow. -/
  commands : List String

structure Given where
  values : List (Field × String)
  /-- A field that is still open, and its value if that has been seen. -/
  pending : Option (Field × Option String)
  /-- Fields whose place has not come up. -/
  places : List Field
deriving DecidableEq, Repr

namespace Given

def start (form : Form) : Given := ⟨[], none, form.placed⟩

def value? (g : Given) (f : Field) : Option String :=
  (g.values.find? fun v => v.1 == f).map Prod.snd

def has (g : Given) (f : Field) : Bool := (g.value? f).isSome

/-- The next word must be the value of an option. -/
def isAwaiting (g : Given) : Bool :=
  match g.pending with
  | some (_, none) => true
  | _ => false

/-- Records a value that its field accepts, once. -/
def record (g : Given) (f : Field) (s : String) : Except Halt Given :=
  if f.accepts s && !g.has f then .ok { g with values := g.values ++ [(f, s)] }
  else .error .misuse

/-- Judges the value that is still open. -/
def settle (g : Given) : Except Halt Given :=
  match g.pending with
  | none => .ok g
  | some (_, none) => .error .misuse
  | some (f, some s) => { g with pending := none }.record f s

/-- Leaves an option open for its value. -/
def await (g : Given) (f : Field) : Except Halt Given :=
  g.settle.map fun g => { g with pending := some (f, none) }

def attach (g : Given) (f : Field) (s : String) : Except Halt Given := do
  let g ← g.settle
  g.record f s

/-- Takes a word by its place. -/
def place (g : Given) (s : String) : Except Halt Given :=
  match g.places with
  | [] => .error .misuse
  | f :: places => g.settle.map fun g => { g with pending := some (f, some s), places }

def halt (g : Given) (h : Halt) : Except Halt Given :=
  match g.settle with
  | .ok _ => .error h
  | .error e => .error e

def long (form : Form) (g : Given) (name : String) (value : Option String) : Except Halt Given :=
  if name = "help" then if value.isNone then g.halt .help else .error .misuse
  else if name = "version" ∧ form.commands ≠ [] then
    if value.isNone then g.halt .version else .error .misuse
  else
    match form.named.find? fun f => f.longName? == some name with
    | none => .error .misuse
    | some f =>
      match value with
      | none => if f.isFlag then g.attach f "" else g.await f
      | some s => if f.isFlag then .error .misuse else g.attach f s

/-- Takes an option by its letter; what follows the letter is its value, less a leading equals
sign. -/
def letter (form : Form) (g : Given) (c : Char) (rest : List Char) : Except Halt Given :=
  if c = 'h' then g.halt .help
  else if c = 'V' ∧ form.commands ≠ [] then g.halt .version
  else
    match form.named.find? fun f => f.shortName? == some c with
    | none => .error .misuse
    | some f =>
      match rest with
      | [] => g.await f
      | '=' :: rest => g.attach f (String.ofList rest)
      | rest => g.attach f (String.ofList rest)

/-- Takes a word that is neither a command nor the mark after which all words count by place. -/
def word (form : Form) (g : Given) (s : String) : Except Halt Given :=
  match s.toList with
  | '-' :: '-' :: cs =>
    let name := cs.takeWhile (· != '=')
    match cs.dropWhile (· != '=') with
    | [] => g.long form (String.ofList name) none
    | _ :: value => g.long form (String.ofList name) (some (String.ofList value))
  | '-' :: c :: rest => g.letter form c rest
  | _ =>
    match g.pending with
    | some (f, none) => .ok { g with pending := some (f, some s) }
    | _ => g.place s

/-- Reads words up to a command name, or to the end. After `--` every word counts by its place. -/
def scan (form : Form) (g : Given) (literal : Bool) :
    List String → Except Halt (Given × Option (String × List String))
  | [] => .ok (g, none)
  | s :: rest =>
    if literal then
      match g.place s with
      | .ok g => scan form g true rest
      | .error h => .error h
    else if !g.isAwaiting && form.commands.contains s then .ok (g, some (s, rest))
    else if s = "--" then scan form g true rest
    else
      match g.word form s with
      | .ok g => scan form g false rest
      | .error h => .error h

end Given

end IdMint.CommandLine
