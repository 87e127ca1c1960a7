import IdMint.Alphabet

/-! An alphabet laid out in a tray of 64 places, its symbols in front. Whatever makes a tray starts
from blank places, so the places behind the symbols are blank as well. -/
namespace IdMint

open Text

/-- 64 places, of which the first `size` hold the symbols of an alphabet. -/
structure Tray where
  places : Vector UInt8 64
  size : Nat
deriving DecidableEq

namespace Tray

def blank : Vector UInt8 64 := Vector.replicate 64 0

/-- Puts symbols into places, one after the other from place `i` on. -/
def fill (places : Vector UInt8 64) (i : Nat) : List UInt8 → Vector UInt8 64
  | [] => places
  | b :: bs => fill (places.setIfInBounds i b) (i + 1) bs

def ofSymbols (bs : List UInt8) : Tray := ⟨fill blank 0 bs, bs.length⟩

variable (t : Tray)

def symbols : List UInt8 := t.places.toList.take t.size

def text : String := ofAscii t.symbols

def bits : Nat := if t.size = 32 then 5 else 6

/-- The symbol at an index, of which only the low bits count. -/
def symbol (index : Nat) : UInt8 := (t.places[index &&& (t.size - 1)]?).getD 0

def shuffled (seed : UInt64) : Tray := ⟨fill blank 0 (Shuffle.shuffle t.symbols seed), t.size⟩

/-- Puts symbols into places until one repeats, where `seen` marks those that have been put. -/
def fillDistinct (seen : Vector Bool 128) (places : Vector UInt8 64) (i : Nat) :
    List UInt8 → Except Refusal (Vector UInt8 64)
  | [] => .ok places
  | b :: bs =>
    if (seen[b.toNat]?).getD false then .error (.duplicateSymbol b)
    else fillDistinct (seen.setIfInBounds b.toNat true) (places.setIfInBounds i b) (i + 1) bs

/-- Reads a tray from text, as alphabets are read. -/
def ofString (s : String) : Except Refusal Tray :=
  if s.length = 32 ∨ s.length = 64 then
    if (bytes s).all isGraphic = true then
      (fillDistinct (Vector.replicate 128 false) blank 0 (bytes s)).map (Tray.mk · s.length)
    else .error .unprintableSymbol
  else .error (.unsupportedLength s.length)

/-- Puts the bytes of a literal into the places after those of `before`. Each byte is judged whole
before the next is looked at. -/
def fillLiteral (before : List UInt8) (places : Vector UInt8 64) :
    List UInt8 → Except Alphabet.LiteralFault (Vector UInt8 64)
  | [] => .ok places
  | b :: bs =>
    if isGraphic b then
      if b ∈ before then .error .repeated
      else fillLiteral (before ++ [b]) (places.setIfInBounds before.length b) bs
    else .error .unprintable

def ofLiteral (s : String) : Except Alphabet.LiteralFault Tray :=
  if (bytes s).length = 32 ∨ (bytes s).length = 64 then
    (fillLiteral [] blank (bytes s)).map (Tray.mk · (bytes s).length)
  else .error .length

end Tray

/-- The tray that an alphabet is laid out in. -/
def Alphabet.tray (a : Alphabet) : Tray := .ofSymbols a.symbols

end IdMint
