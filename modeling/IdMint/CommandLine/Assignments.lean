import IdMint.CommandLine.Arguments
import IdMint.Text.Alphanumeric

/-! Files of assignments. Each line assigns a value to a variable; quotes may carry a value over
several lines, and a value may mention variables. What the environment holds already stays, lines
before a faulty one count, and lines after it do not. -/
namespace IdMint.CommandLine.Assignments

open Text

def physicalLines : List Char → List (List Char)
  | [] => []
  | '\n' :: cs => ['\n'] :: physicalLines cs
  | c :: cs =>
    match physicalLines cs with
    | [] => [[c]]
    | line :: lines =>
      (c :: line) :: lines

/-- Where a line stands between two characters. -/
inductive Mood where
  | plain
  | blank
  | escape
  | single
  | singleEscape
  | double
  | doubleEscape
deriving DecidableEq, Repr

/-- Where a line stands after a character outside quotes. -/
def Mood.opened : Char → Option Mood
  | '\\' => some escape
  | '"' => some double
  | '\'' => some single
  | _ => none

def Mood.next : Mood → Char → Mood
  | plain, c =>
    if isBlank c && c != '\n' && c != '\r' then blank else (Mood.opened c).getD plain
  | blank, c => (Mood.opened c).getD plain
  | escape, _ => plain
  | double, c => if c = '\\' then doubleEscape else if c = '"' then plain else double
  | doubleEscape, _ => double
  | single, c => if c = '\\' then singleEscape else if c = '\'' then plain else single
  | singleEscape, _ => single

/-- Walks through a line: where it stands at the end, or nothing if a comment starts, together with
the characters before the comment. -/
def walk (mood : Mood) : List Char → Option Mood × List Char
  | [] => (some mood, [])
  | c :: cs =>
    if mood = .blank ∧ c = '#' then (none, [])
    else
      let (last, kept) := walk (mood.next c) cs
      (last, c :: kept)

def dropBreak (cs : List Char) : List Char :=
  match cs.reverse with
  | '\n' :: '\r' :: rest => rest.reverse
  | '\n' :: rest => rest.reverse
  | _ => cs

/-- Joins physical lines while a quote or an escape is open. The last entry is nothing if the text
ends in the middle of one. -/
def logicalLines (before : List Char) (mood : Mood) :
    List (List Char) → List (Option (List Char))
  | [] => if mood = .plain then [] else [none]
  | line :: lines =>
    let whole := before ++ line
    if (trimStart whole).head? = some '#' then some [] :: logicalLines [] .plain lines
    else
      match walk mood line with
      | (none, kept) => some (before ++ kept) :: logicalLines [] .plain lines
      | (some .plain, _) => some (dropBreak whole) :: logicalLines [] .plain lines
      | (some mood, _) => logicalLines whole mood lines

/-- How the next character of a value is taken. -/
inductive Mode where
  | bare
  | single
  | escaped
  /-- After a dollar sign and the start of a name. -/
  | name (soFar : List Char)
  /-- After a dollar sign and a brace. -/
  | braced (soFar : List Char)
  /-- After a blank: only blanks or a comment may follow. -/
  | ended
deriving DecidableEq, Repr

/-- Reads a value, given what variables stand for and whether a double quote is open. -/
def readValue (expand : String → String) (double : Bool) : Mode → List Char → Option (List Char)
  | .bare, [] | .escaped, [] | .ended, [] => if double then none else some []
  | .name soFar, [] => if double then none else some (expand (String.ofList soFar)).toList
  | .single, [] | .braced _, [] => none
  | .ended, c :: cs =>
    if c = ' ' ∨ c = '\t' then readValue expand double .ended cs
    else if c = '#' then some []
    else none
  | .escaped, c :: cs =>
    if ['\\', '\'', '"', '$', ' '].contains c then
      (readValue expand double .bare cs).map (c :: ·)
    else if c = 'n' then (readValue expand double .bare cs).map ('\n' :: ·)
    else none
  | .single, c :: cs =>
    if c = '\'' then readValue expand double .bare cs
    else (readValue expand double .single cs).map (c :: ·)
  | .name soFar, c :: cs =>
    if isAlphanumeric c then readValue expand double (.name (soFar ++ [c])) cs
    else if c = '\x7b' ∧ soFar = [] then readValue expand double (.braced []) cs
    else
      let value := (expand (String.ofList soFar)).toList
      if c = '$' then (readValue expand double (.name []) cs).map (value ++ ·)
      else (readValue expand double .bare cs).map (value ++ c :: ·)
  | .braced soFar, c :: cs =>
    if c = '\x7d' then
      (readValue expand double .bare cs).map ((expand (String.ofList soFar)).toList ++ ·)
    else readValue expand double (.braced (soFar ++ [c])) cs
  | .bare, c :: cs =>
    if c = '$' then readValue expand double (.name []) cs
    else if double then
      if c = '"' then readValue expand false .bare cs
      else if c = '\\' then readValue expand true .escaped cs
      else (readValue expand true .bare cs).map (c :: ·)
    else if c = '\'' then readValue expand false .single cs
    else if c = '"' then readValue expand true .bare cs
    else if c = '\\' then readValue expand false .escaped cs
    else if c = ' ' ∨ c = '\t' then readValue expand false .ended cs
    else (readValue expand false .bare cs).map (c :: ·)

def startsName (c : Char) : Bool := c.isAlpha || c = '_'

def isKeyChar (c : Char) : Bool := c.isAlphanum || c = '_' || c = '.'

/-- Reads a variable's name and the blanks behind it. -/
def readKey (cs : List Char) : Option (String × List Char) :=
  if cs.head?.any startsName then
    some (String.ofList (cs.takeWhile isKeyChar), trimStart (cs.dropWhile isKeyChar))
  else none

/-- Reads what is behind an equals sign, without leading blanks. -/
def readEquals : List Char → Option (List Char)
  | '=' :: cs => some (trimStart cs)
  | _ => none

/-- Reads a variable's name up to the value. The word `export` may stand before it, unless it is the
name itself. -/
def readTarget (cs : List Char) : Option (String × List Char) := do
  let (key, rest) ← readKey cs
  match readEquals rest with
  | some value => return (key, value)
  | none =>
    if key = "export" then
      let (key, rest) ← readKey rest
      return (key, ← readEquals rest)
    else none

inductive Line where
  | nothing
  | assign (key value : String)
  | faulty
deriving DecidableEq, Repr

def readLine (expand : String → String) (line : List Char) : Line :=
  let cs := trimStart (trimEnd line)
  if cs = [] ∨ cs.head? = some '#' then .nothing
  else
    match readTarget cs with
    | none => .faulty
    | some (key, value) =>
      if value = [] ∨ value.head? = some '#' then .assign key ""
      else
        match readValue expand false .bare value with
        | some value => .assign key (String.ofList value)
        | none => .faulty

/-- Carries out lines in order until one is faulty. A mentioned variable has its value in the
environment, or else what an earlier line assigned to it, or else none. -/
def carryOut (env assigned : Environment) : List (Option (List Char)) → Environment
  | [] => env
  | none :: _ => env
  | some line :: lines =>
    let expand := fun name => ((env.get? name).or (assigned.get? name)).getD ""
    match readLine expand line with
    | .nothing => carryOut env assigned lines
    | .assign key value =>
      let env := if (env.get? key).isSome then env else env ++ [(key, value)]
      carryOut env ((key, value) :: assigned) lines
    | .faulty => env

/-- The environment after the assignments in a text, which may start with a byte order mark. -/
def apply (env : Environment) (text : String) : Environment :=
  let cs := match text.toList with
    | '\ufeff' :: cs => cs
    | cs => cs
  carryOut env [] (logicalLines [] .plain (physicalLines cs))

/-- The longest runs of characters that all pass a test. -/
def runs (test : Char → Bool) : List Char → List (List Char)
  | [] => []
  | c :: cs =>
    if test c then
      match cs, runs test cs with
      | d :: _, run :: rest => if test d then (c :: run) :: rest else [c] :: run :: rest
      | _, rest => [c] :: rest
    else runs test cs

/-- Names that a text may mention or assign, so that their values can be fetched beforehand. -/
def namesIn (text : String) : List String :=
  (runs isAlphanumeric text.toList ++ runs isKeyChar text.toList).map String.ofList

end IdMint.CommandLine.Assignments
