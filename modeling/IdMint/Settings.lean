import IdMint.ShortId.Issuer
import IdMint.TimeId.Issuer

/-! Settings from which issuers are made, with what holds when nothing is set. -/
namespace IdMint

structure TimeId.Settings where
  node : Nat := 0
  precision : Precision := .second
deriving DecidableEq, Repr

def TimeId.Settings.issuer (s : TimeId.Settings) : Except Refusal TimeId.Issuer :=
  TimeId.Issuer.ofNode s.node s.precision

structure ShortId.Settings where
  worker : Nat := 0
  alphabet : String := Alphabet.standardText
  seed : UInt64 := 1
deriving DecidableEq, Repr

/-- The issuer of the settings: the alphabet is read, shuffled, and then the worker is judged. -/
def ShortId.Settings.issuer (s : ShortId.Settings) : Except Refusal ShortId.Issuer := do
  let alphabet ← Alphabet.ofString s.alphabet
  ShortId.Issuer.ofWorker s.worker (alphabet.shuffled s.seed)

namespace ShortId.Settings

variable {s : Settings}

theorem issuer_of_alphabet {a : Alphabet} (h : Alphabet.ofString s.alphabet = .ok a) :
    s.issuer = Issuer.ofWorker s.worker (a.shuffled s.seed) := by
  rw [issuer, h]
  rfl

theorem issuer_of_refusal {cause : Refusal} (h : Alphabet.ofString s.alphabet = .error cause) :
    s.issuer = .error cause := by
  rw [issuer, h]
  rfl

end ShortId.Settings

end IdMint
