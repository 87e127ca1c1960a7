import IdMint.Tray

/-! Writing 64-bit words over an alphabet and reading them back. A written word has no leading zero
symbol unless it is zero; a reader accepts leading zeros and reports the leftmost fault. -/
namespace IdMint

open Text

/-- A way to write words: the alphabet whose symbols are the digits. -/
structure Numerals where
  alphabet : Alphabet
deriving DecidableEq

namespace Numerals

def ofString (s : String) : Except Refusal Numerals := (Alphabet.ofString s).map Numerals.mk

def standard : Numerals := ⟨.standard⟩

def base32 : Numerals := ⟨.base32⟩

def radix (n : Numerals) : Nat := n.alphabet.size

def bitsPerSymbol (n : Numerals) : Nat := n.alphabet.bits

def maxLength (n : Numerals) : Nat := (64 + n.bitsPerSymbol - 1) / n.bitsPerSymbol

def bufferSize : Nat := 13

abbrev Buffer : Type := Vector UInt8 bufferSize

/-- What is looked up while words are written and read: the symbols in their places, and for every
byte the index of the symbol that it is. -/
structure Tables where
  tray : Tray
  indices : Vector UInt8 256
deriving DecidableEq

namespace Tables

/-- Stands where a byte is no symbol. -/
def foreign : UInt8 := 255

/-- Notes the indices of the first `n` symbols, each at the byte that the symbol is. -/
def note (tray : Tray) (n : Nat) : Vector UInt8 256 :=
  (List.range n).foldl
    (fun indices i => indices.setIfInBounds (tray.symbol i).toNat (UInt8.ofNat i))
    (Vector.replicate 256 foreign)

def ofTray (tray : Tray) : Tables := ⟨tray, note tray tray.size⟩

variable (t : Tables)

/-- The index of the symbol that a byte is, or `foreign`. -/
def index (b : UInt8) : UInt8 :=
  have h : b.toNat < 256 := b.toNat_lt
  t.indices[b.toNat]

/-- Bits that one symbol carries, as a distance to shift words by. -/
def step : UInt64 := UInt64.ofNat t.tray.bits

def mask : UInt64 := (1 <<< t.step) - 1

/-- Writes symbols back to front below place `stop`, least significant first, until nothing of the
word is left. Returns the place of the first symbol and the buffer. -/
def writeBelow : (stop : Nat) → UInt64 → Buffer → Nat × Buffer
  | 0, _, buffer => (0, buffer)
  | place + 1, x, buffer =>
    let buffer := buffer.setIfInBounds place (t.tray.symbol (x &&& t.mask).toNat)
    let rest := x >>> t.step
    if rest = 0 then (place, buffer) else writeBelow place rest buffer

/-- Reads on from a word already read, at a byte offset. A foreign byte is reported before an
overflow at the same place. -/
def readFrom (offset : Nat) (word : UInt64) : List UInt8 → Except Refusal UInt64
  | [] => .ok word
  | b :: bs =>
    if t.index b = foreign then .error (.invalidSymbol b offset)
    else if word >>> (64 - t.step) = 0 then
      readFrom (offset + 1) (word <<< t.step ||| (t.index b).toUInt64) bs
    else .error .valueTooLarge

/-- Reads on from a word already read, without judging. -/
def readLossy (word : UInt64) (b : UInt8) : UInt64 :=
  word <<< t.step ||| (if t.index b = foreign then 0 else t.index b).toUInt64

end Tables

variable (n : Numerals)

def tables : Tables := .ofTray n.alphabet.tray

def writeInto (x : UInt64) (buffer : Buffer) : Nat × Buffer :=
  n.tables.writeBelow bufferSize x buffer

/-- The bytes that `writeInto` wrote, given what it returned. -/
def written (r : Nat × Buffer) : List UInt8 := r.2.toList.drop r.1

def write (x : UInt64) : String :=
  ofAscii (written (n.writeInto x (Vector.replicate bufferSize 0)))

/-- Reads a word, most significant symbol first. -/
def read (s : String) : Except Refusal UInt64 :=
  if s = "" then .error .emptyInput else n.tables.readFrom 0 0 (bytes s)

/-- Reads without judging: a foreign byte counts as zero and the high bits that do not fit are
lost. -/
def readLossy (s : String) : UInt64 := (bytes s).foldl n.tables.readLossy 0

end Numerals

end IdMint
