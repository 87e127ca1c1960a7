import IdMint.Refusal

/-! A value in force and those who use it. It is never changed in place: publishing another one
hands back the one before. Whoever asks asks the value in force at that moment, or one that was
handed out before and is still held. The slot is read and written in one step, so the errands of any
number of callers come one after another. -/
namespace IdMint

structure Slot (α : Type) where
  current : α
deriving DecidableEq, Repr

namespace Slot

variable {α : Type}

def publish (s : Slot α) (a : α) : α × Slot α := (s.current, ⟨a⟩)

/-- Puts a value in force if it could be made; otherwise nothing changes. -/
def publishOk {ε : Type} (s : Slot α) : Except ε α → Except ε (α × Slot α)
  | .ok a => .ok (s.publish a)
  | .error e => .error e

end Slot

/-- A value as it was put in force once; the number tells it from equal values put in force at other
times. -/
structure Edition (α : Type) where
  number : Nat
  value : α
deriving DecidableEq, Repr

/-- How values are made to order, and what they do when asked. What they share with each other lies
outside of them. -/
structure Service (ο α κ ρ ω : Type) where
  make : ο → Except Refusal α
  /-- Makes room outside for a value put in force. -/
  receive : α → ω → ω
  answer : α → κ → ω → ρ × ω

inductive Errand (ο κ : Type) where
  /-- To put a value made to order in force. -/
  | set (order : ο)
  /-- To be handed the value in force. -/
  | hold
  | ask (query : κ)
  /-- To ask a value that was handed out before, by its place among all of them. -/
  | askHeld (place : Nat) (query : κ)
deriving DecidableEq, Repr

inductive Reply (α ρ : Type) where
  | replaced (previous : Edition α)
  | rejected (cause : Refusal)
  | handed (edition : Edition α)
  | answered (answer : ρ)
  /-- Nothing has been handed out at this place. -/
  | unknown

/-- The value in force, the values handed out, oldest first, and what lies outside of them. -/
structure Desk (α ω : Type) where
  slot : Slot (Edition α)
  held : List (Edition α)
  around : ω

namespace Desk

variable {α ω : Type}

def start (first : α) (around : ω) : Desk α ω := ⟨⟨⟨0, first⟩⟩, [], around⟩

def current (d : Desk α ω) : Edition α := d.slot.current

/-- The edition that a value becomes next. -/
def edition (d : Desk α ω) (a : α) : Edition α := ⟨d.current.number + 1, a⟩

end Desk

namespace Service

variable {ο α κ ρ ω : Type} (S : Service ο α κ ρ ω)

def asked (d : Desk α ω) (e : Edition α) (query : κ) : Reply α ρ × Desk α ω :=
  let (answer, around) := S.answer e.value query d.around
  (.answered answer, { d with around })

def turn (d : Desk α ω) : Errand ο κ → Reply α ρ × Desk α ω
  | .set order =>
    match d.slot.publishOk ((S.make order).map d.edition) with
    | .error cause => (.rejected cause, d)
    | .ok (previous, slot) =>
      (.replaced previous, ⟨slot, d.held ++ [previous], S.receive slot.current.value d.around⟩)
  | .hold => (.handed d.current, { d with held := d.held ++ [d.current] })
  | .ask query => S.asked d d.current query
  | .askHeld place query =>
    match d.held[place]? with
    | some e => S.asked d e query
    | none => (.unknown, d)

def run (d : Desk α ω) : List (Errand ο κ) → List (Reply α ρ) × Desk α ω
  | [] => ([], d)
  | e :: es =>
    let (reply, next) := S.turn d e
    let (replies, last) := run next es
    (reply :: replies, last)

end Service

end IdMint
