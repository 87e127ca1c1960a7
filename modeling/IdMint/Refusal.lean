import IdMint.Decimal

/-! Why a request is refused: the causes, their wording, and two classes of them. -/
namespace IdMint

/-- A cause of refusal. Each constructor carries what its message names. -/
inductive Refusal where
  /-- An alphabet holds neither 32 nor 64 characters. -/
  | unsupportedLength (length : Nat)
  /-- A symbol of an alphabet occurs a second time. -/
  | duplicateSymbol (symbol : UInt8)
  /-- An alphabet holds something other than printable ASCII. -/
  | unprintableSymbol
  /-- A node or worker number is wider than its field. -/
  | workerTooLarge (worker max : Nat)
  /-- The clock shows an earlier tick than the last one issued. -/
  | clockRolledBack (last now : Nat)
  /-- Every sequence number of a tick has been issued. -/
  | sequenceExhausted (tick : Nat)
  /-- More time has passed than the timestamp field can hold. -/
  | timeExhausted (elapsed max : Nat)
  /-- A byte is no symbol of the alphabet. -/
  | invalidSymbol (byte : UInt8) (index : Nat)
  /-- There is nothing to read. -/
  | emptyInput
  /-- A written number needs more than 64 bits. -/
  | valueTooLarge
  /-- A byte is no decimal digit. -/
  | invalidDigit (byte : UInt8) (index : Nat)
  /-- A shared cell was abandoned in the middle of an update. -/
  | poisoned
deriving DecidableEq, Repr

namespace Refusal

def hexByte (b : UInt8) : String :=
  String.ofList [Nat.digitChar (b.toNat / 16), Nat.digitChar (b.toNat % 16)]

/-- A symbol in single quotes, with a backslash before a quote or a backslash. -/
def quoteSymbol (b : UInt8) : String :=
  if b = 0x27 then "'\\''" else if b = 0x5c then "'\\\\'"
  else String.ofList ['\'', Char.ofUInt8 b, '\'']

def message : Refusal → String
  | unsupportedLength n => "alphabet must contain exactly 32 or 64 symbols, got " ++ Decimal.text n
  | duplicateSymbol b => "alphabet symbol " ++ quoteSymbol b ++ " appears more than once"
  | unprintableSymbol => "alphabet symbols must be printable ASCII"
  | workerTooLarge w m =>
    "worker id " ++ Decimal.text w ++ " exceeds the maximum of " ++ Decimal.text m
  | clockRolledBack last now =>
    "clock moved backwards: last issued at " ++ Decimal.text last ++ ", now " ++ Decimal.text now
  | sequenceExhausted t => "sequence exhausted for timestamp " ++ Decimal.text t
  | timeExhausted e m =>
    "elapsed time " ++ Decimal.text e ++ " exceeds the timestamp budget of " ++ Decimal.text m
  | invalidSymbol b i => "invalid symbol 0x" ++ hexByte b ++ " at index " ++ Decimal.text i
  | emptyInput => "cannot decode an empty string"
  | valueTooLarge => "decoded value does not fit in 64 bits"
  | invalidDigit b i => "invalid decimal digit 0x" ++ hexByte b ++ " at index " ++ Decimal.text i
  | poisoned => "generator lock poisoned"

/-- Refusals that arise only while something is being set up. -/
def isConstruction : Refusal → Bool
  | unsupportedLength _ | duplicateSymbol _ | unprintableSymbol | workerTooLarge _ _ => true
  | _ => false

/-- Refusals that pass by themselves: only an exhausted tick, which the next tick replaces. -/
def isTransient : Refusal → Bool
  | sequenceExhausted _ => true
  | _ => false

end Refusal

end IdMint
