import IdMint.Decimal
import IdMint.Precision

/-! What can be said on the command line, and which words say it. -/
namespace IdMint.CommandLine

/-- A thing that can be set: by an option with a long name, by a flag, or by its place. -/
inductive Field where
  | node
  | precision
  | alphabet
  | seed
  | worker
  | count
  | radix
  | luhn
  /-- The identifier to take apart. -/
  | subject
  /-- The alphabet to permute. -/
  | symbols
  /-- The seed to permute it with. -/
  | shuffleSeed
deriving DecidableEq, Repr

namespace Field

def longName? : Field → Option String
  | node => some "node-id"
  | precision => some "precision"
  | alphabet => some "alphabet"
  | seed => some "seed"
  | worker => some "worker"
  | count => some "count"
  | radix => some "radix"
  | luhn => some "luhn"
  | subject | symbols | shuffleSeed => none

def shortName? : Field → Option Char
  | count => some 'n'
  | _ => none

/-- A flag takes no value. -/
def isFlag : Field → Bool
  | radix | luhn => true
  | _ => false

/-- The environment variable that gives the value when the command line does not. -/
def envName? : Field → Option String
  | node => some "FLAKEID_NODE_ID"
  | precision => some "FLAKEID_PRECISION"
  | alphabet => some "FLAKEID_ALPHABET"
  | seed => some "FLAKEID_SEED"
  | worker => some "FLAKEID_WORKER"
  | _ => none

end Field

/-- A word of 64 bits, with an optional plus sign. -/
def readWord? (s : String) : Option UInt64 := (Decimal.read s).toOption

/-- A number below 256 after an optional sign; minus zero is zero. -/
def readWorker? (s : String) : Option Nat :=
  let digits := fun cs : List Char =>
    if cs ≠ [] ∧ cs.all Char.isDigit then some (cs.foldl (fun n c => 10 * n + (c.toNat - 48)) 0)
    else none
  match s.toList with
  | '-' :: cs => (digits cs).filter (· = 0)
  | '+' :: cs => (digits cs).filter (· < 256)
  | cs => (digits cs).filter (· < 256)

def Field.accepts (f : Field) (s : String) : Bool :=
  match f with
  | node | seed | count | shuffleSeed => (readWord? s).isSome
  | precision => (Precision.ofName? s).isSome
  | worker => (readWorker? s).isSome
  | alphabet | subject | symbols | radix | luhn => true

end IdMint.CommandLine
