import IdMint.Alphabet
import IdMint.Digits

/-! Random filler. Each random word gives eight bytes, low byte first, and each packed symbol takes
one byte, of which a single bit shows. -/
namespace IdMint.ShortId

/-- The bytes of the last word drawn that are still to be used, and how many words were drawn. -/
structure Filler where
  pending : List UInt8
  drawn : Nat
deriving DecidableEq, Repr

namespace Filler

def empty : Filler := ⟨[], 0⟩

/-- The eight bytes of a word, low byte first. -/
def bytesOf (word : UInt64) : List UInt8 :=
  (List.range 8).map fun k => UInt8.ofNat (word.toNat >>> (8 * k))

/-- The next byte. A word is drawn only when no byte is left; `source k` is the word of draw `k`. -/
def next (source : Nat → UInt64) : Filler → UInt8 × Filler
  | ⟨b :: bs, drawn⟩ => (b, ⟨bs, drawn⟩)
  | ⟨[], drawn⟩ =>
    let word := source drawn
    ((bytesOf word).headD 0, ⟨(bytesOf word).tail, drawn + 1⟩)

end Filler

/-- The symbol of a digit, with a filler byte giving the top bit of its index. -/
def packedSymbol (a : Alphabet) (digit : Nat) (byte : UInt8) : UInt8 :=
  a.symbol (((byte.toNat >>> a.dataBits) % 2) <<< a.dataBits + digit)

/-- The symbols of digits, each with the next filler byte. -/
def dress (a : Alphabet) (source : Nat → UInt64) (filler : Filler) :
    List Nat → List UInt8 × Filler
  | [] => ([], filler)
  | d :: ds =>
    let (byte, filler) := filler.next source
    let (symbols, filler) := dress a source filler ds
    (packedSymbol a d byte :: symbols, filler)

/-- Appends the symbols of a number, least significant digit first and at least one. -/
def pack (a : Alphabet) (source : Nat → UInt64) (written : List UInt8 × Filler) (n : Nat) :
    List UInt8 × Filler :=
  let (symbols, filler) := dress a source written.2 (Digits.ofNat (1 <<< a.dataBits) n)
  (written.1 ++ symbols, filler)

end IdMint.ShortId
