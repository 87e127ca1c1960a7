/-! Random words: a stream that grows from a seed, and a seed from bytes of entropy. -/
namespace IdMint.Random

/-- Bytes as a word, the highest one first. -/
def wordOfBytes (bytes : List UInt8) : UInt64 :=
  bytes.foldl (fun w b => w * 256 + b.toUInt64) 0

/-- Spreads the bits of a word over all of it. -/
def mix (x : UInt64) : UInt64 :=
  let x := (x ^^^ (x >>> 30)) * 0xbf58476d1ce4e5b9
  let x := (x ^^^ (x >>> 27)) * 0x94d049bb133111eb
  x ^^^ (x >>> 31)

/-- The words that a seed gives, by number. -/
def stream (seed : UInt64) (k : Nat) : UInt64 :=
  mix (seed + UInt64.ofNat (k + 1) * 0x9e3779b97f4a7c15)

/-- Not all words are equal. -/
def varies (words : List UInt64) : Bool :=
  match words with
  | [] => false
  | w :: ws => ws.any (· != w)

end IdMint.Random
