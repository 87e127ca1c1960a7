import IdMint.Json.Value

/-! Taking values of fixed shape out of JSON. A record may be written as an object, in which no
field repeats, or as an array of its fields in order, which may stop early. -/
namespace IdMint.Json

/-- A natural number up to `max`, written plainly. -/
def natural? (max : Nat) : Value → Option Nat
  | .number n => n.natural?.filter (· ≤ max)
  | _ => none

def text? : Value → Option String
  | .string s => s
  | _ => none

/-- The fields of a record by name: for each of `names`, its value if it is there. -/
def fields? (names : List String) : Value → Option (List (Option Value))
  | .object members =>
    if members.any fun m => m.1.isNone then none
    else if names.any fun name => 1 < members.countP fun m => m.1 == some name then none
    else some (names.map fun name => (members.find? fun m => m.1 == some name).map Prod.snd)
  | .array items =>
    if items.length ≤ names.length then
      some (items.map some ++ List.replicate (names.length - items.length) none)
    else none
  | _ => none

/-- Takes a field that may be left out. -/
def optional {α : Type} (take : Value → Option α) (default : α) : Option Value → Option α
  | none => some default
  | some v => take v

end IdMint.Json
