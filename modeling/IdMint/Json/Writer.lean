import IdMint.Decimal
import IdMint.Json.Value

/-! Writing JSON without blanks. Only the quote, the backslash and control characters are
escaped. -/
namespace IdMint.Json

def escapeChar (c : Char) : List Char :=
  if c = '"' then ['\\', '"']
  else if c = '\\' then ['\\', '\\']
  else if c = '\x08' then ['\\', 'b']
  else if c = '\x0c' then ['\\', 'f']
  else if c = '\n' then ['\\', 'n']
  else if c = '\r' then ['\\', 'r']
  else if c = '\t' then ['\\', 't']
  else if c.toNat < 32 then
    ['\\', 'u', '0', '0', Nat.digitChar (c.toNat / 16), Nat.digitChar (c.toNat % 16)]
  else [c]

def quote (s : String) : String :=
  String.ofList ('"' :: s.toList.flatMap escapeChar ++ ['"'])

def digitText (ds : List Nat) : String := String.ofList (ds.map Nat.digitChar)

def Number.render (n : Number) : String :=
  (if n.negative then "-" else "") ++ digitText n.whole
    ++ (if n.fraction = [] then "" else "." ++ digitText n.fraction)
    ++ match n.exponent with
      | none => ""
      | some e => "e" ++ Decimal.signed e

mutual

/-- A value as text. A string without text is written as an empty one. -/
def Value.render : Value → String
  | .null => "null"
  | .bool true => "true"
  | .bool false => "false"
  | .number n => n.render
  | .string s => quote (s.getD "")
  | .array items => "[" ++ ",".intercalate (renderItems items) ++ "]"
  | .object members => "\x7b" ++ ",".intercalate (renderMembers members) ++ "\x7d"

def renderItems : List Value → List String
  | [] => []
  | v :: vs => v.render :: renderItems vs

def renderMembers : List (Option String × Value) → List String
  | [] => []
  | (k, v) :: ms => (quote (k.getD "") ++ ":" ++ v.render) :: renderMembers ms

end

end IdMint.Json
