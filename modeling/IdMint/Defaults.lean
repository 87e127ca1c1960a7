import IdMint.Desk
import IdMint.Numerals
import IdMint.TimeId.Fleet

/-! The two values in force throughout a process: the numerals that words are written in, and an
issuer of time-ordered identifiers. -/
namespace IdMint

/-- Numerals to order: the symbols, and a seed if they are to be shuffled. -/
structure Numerals.Order where
  symbols : String
  seed : Option UInt64
deriving DecidableEq, Repr

inductive Numerals.Query where
  | write (x : UInt64)
  | read (s : String)
deriving DecidableEq, Repr

inductive Numerals.Answer where
  | text (s : String)
  | word (r : Except Refusal UInt64)

def Numerals.ofOrder (o : Order) : Except Refusal Numerals :=
  (Alphabet.ofString o.symbols).map fun a =>
    match o.seed with
    | none => ⟨a⟩
    | some seed => ⟨a.shuffled seed⟩

def Numerals.answer (n : Numerals) : Query → Answer
  | .write x => .text (n.write x)
  | .read s => .word (n.read s)

/-- Numerals share nothing with each other. -/
def Numerals.service : Service Order Numerals Query Answer Unit where
  make := ofOrder
  receive _ _ := ()
  answer n query _ := (n.answer query, ())

/-- The standard numerals are in force at first. -/
def Numerals.desk : Desk Numerals Unit := .start .standard ()

namespace TimeId.Fleet

/-- An issuer to order, and the number of the cell that it is to draw from. -/
structure Order where
  node : Nat
  precision : Precision
  cell : Nat
deriving DecidableEq, Repr

structure Query where
  reading : Clock.Reading
  demanded : Bool
deriving DecidableEq

/-- Issuers share the cells of a fleet. -/
def service : Service Order Member Query (Outcome TimeId × List Event) Fleet where
  make o := (Issuer.ofNode o.node o.precision).map fun g => ⟨g, o.cell⟩
  receive m f := f.receive m
  answer m query f :=
    let t := f.turn ⟨m, query.reading, query.demanded⟩
    ((t.outcome, t.events), t.fleet)

/-- The standard issuer, with a cell of its own, is in force at first. -/
def desk : Desk Member Fleet := .start ⟨.standard, 0⟩ (empty.found .standard)

end TimeId.Fleet

end IdMint
