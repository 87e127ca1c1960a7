import IdMint.Json.Shape
import IdMint.Settings

/-! The JSON forms of identifiers, precisions and settings. -/
namespace IdMint

open Json

def Precision.toJson (p : Precision) : Value := .text p.name

/-- Reads a precision: its name, or an object with the name as its only member and null as value. -/
def Precision.ofJson? : Value → Option Precision
  | .string s => s.bind ofName?
  | .object [(name, .null)] => name.bind ofName?
  | _ => none

def TimeId.toJson (id : TimeId) : Value := .nat id.raw.toNat

def TimeId.ofJson? (v : Value) : Option TimeId :=
  (natural? (UInt64.size - 1) v).map fun n => ⟨UInt64.ofNat n⟩

def TimeId.Settings.toJson (s : TimeId.Settings) : Value :=
  .record [("node_id", .nat s.node), ("precision", s.precision.toJson)]

/-- Reads settings from a record; what is left out keeps its default. -/
def TimeId.Settings.ofJson? (v : Value) : Option TimeId.Settings := do
  let standard : TimeId.Settings := {}
  match ← fields? ["node_id", "precision"] v with
  | [node, precision] =>
    let node ← optional (natural? (UInt64.size - 1)) standard.node node
    let precision ← optional Precision.ofJson? standard.precision precision
    return { node, precision }
  | _ => none

def ShortId.Settings.toJson (s : ShortId.Settings) : Value :=
  .record [("worker", .nat s.worker), ("alphabet", .text s.alphabet), ("seed", .nat s.seed.toNat)]

def ShortId.Settings.ofJson? (v : Value) : Option ShortId.Settings := do
  let standard : ShortId.Settings := {}
  match ← fields? ["worker", "alphabet", "seed"] v with
  | [worker, alphabet, seed] =>
    let worker ← optional (natural? 255) standard.worker worker
    let alphabet ← optional text? standard.alphabet alphabet
    let seed ← optional (natural? (UInt64.size - 1)) standard.seed.toNat seed
    return { worker, alphabet, seed := UInt64.ofNat seed }
  | _ => none

end IdMint
