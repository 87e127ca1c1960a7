import IdMint.CommandLine.Arguments
import IdMint.Settings
import IdMint.Text.Quoted

/-! Arguments that have been checked, and why others are turned down. -/
namespace IdMint.CommandLine

inductive Failure where
  | nodeTooLarge (node : Nat)
  | countZero
  | badAlphabet (cause : Refusal)
  | workerTooLarge (worker size max : Nat)
  /-- An issuer turned its settings down. -/
  | settings (cause : Refusal)
  /-- An issuer refused to issue. -/
  | issuing (cause : Refusal)
  | noCheckDigit (id : TimeId)
  | undecodable (text : String) (cause : Refusal)
  | repeatedSymbol
deriving DecidableEq, Repr

namespace Failure

def message : Failure → String
  | nodeTooLarge n =>
    "FLAKEID_NODE_ID (" ++ Decimal.text n ++ ") exceeds the node ID space (max = "
      ++ Decimal.text TimeId.maxNode ++ ")"
  | countZero => "--count must be greater than 0"
  | badAlphabet _ => "invalid FLAKEID_ALPHABET"
  | workerTooLarge w size max =>
    "FLAKEID_WORKER (" ++ Decimal.text w ++ ") does not fit a " ++ Decimal.text size
      ++ "-symbol alphabet (max = " ++ Decimal.text max ++ ")"
  | settings cause => cause.message
  | issuing _ => "failed to generate id"
  | noCheckDigit id => id.decimal ++ " is too large for a check digit"
  | undecodable s _ => "cannot decode " ++ Text.quoted s
  | repeatedSymbol => "alphabet symbols must be unique"

def cause? : Failure → Option Refusal
  | badAlphabet cause | issuing cause | undecodable _ cause => some cause
  | _ => none

def report (f : Failure) : String :=
  "Error: " ++ f.message ++ "\n"
    ++ match f.cause? with
      | none => ""
      | some cause => "\nCaused by:\n    " ++ cause.message ++ "\n"

end Failure

structure Plan where
  sequential : TimeId.Settings
  short : ShortId.Settings
  command : Command
deriving DecidableEq, Repr

namespace Plan

/-- The alphabet and the worker are checked only where they are used. -/
def checkShort (a : Arguments) : Except Failure Unit :=
  match Alphabet.ofString a.alphabet with
  | .error cause => .error (.badAlphabet cause)
  | .ok alphabet =>
    if alphabet.maxWorker < a.worker then
      .error (.workerTooLarge a.worker alphabet.size alphabet.maxWorker)
    else .ok ()

/-- Checks arguments: the node first, then that something is to be issued, then the rest. -/
def ofArguments (a : Arguments) : Except Failure Plan :=
  let plan : Plan := ⟨⟨a.node, a.precision⟩, ⟨a.worker, a.alphabet, a.seed⟩, a.command⟩
  if TimeId.maxNode < a.node then .error (.nodeTooLarge a.node)
  else
    match a.command with
    | .sequential count _ _ => if count = 0 then .error .countZero else .ok plan
    | .short count =>
      if count = 0 then .error .countZero else (checkShort a).map fun _ => plan
    | _ => .ok plan

end Plan

end IdMint.CommandLine
