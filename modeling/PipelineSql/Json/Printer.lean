import PipelineSql.Json.Basic

/-!
# Compact JSON text

No blanks, entries in order. Strings escape the quote, the backslash and the control characters
below U+0020, with the short forms where JSON has one.
-/

namespace PipelineSql.Json

/-- A hexadecimal digit in lower case. -/
def hexDigit (n : Nat) : Char :=
  Nat.digitChar (n % 16)

/-- The characters that stand for `c` between quotes. -/
def escapeChar (c : Char) : List Char :=
  if c = '"' then ['\\', '"']
  else if c = '\\' then ['\\', '\\']
  else if c = '\n' then ['\\', 'n']
  else if c = '\r' then ['\\', 'r']
  else if c = '\t' then ['\\', 't']
  else if c.toNat = 8 then ['\\', 'b']
  else if c.toNat = 12 then ['\\', 'f']
  else if c.toNat < 32 then ['\\', 'u', '0', '0', hexDigit (c.toNat / 16), hexDigit c.toNat]
  else [c]

/-- A quoted string. -/
def quote (s : String) : String :=
  "\"" ++ String.ofList (s.toList.flatMap escapeChar) ++ "\""

/-- The text of a number; a number that is not finite has none in JSON and prints as `null`. -/
def printNumber : Number → String
  | .int n => toString n
  | .float x =>
    match Decimal.ofFloat? x with
    | some d => d.toText .plus
    | none => "null"

mutual

/-- The compact text of a value. -/
def print : Json → String
  | .null => "null"
  | .bool b => if b then "true" else "false"
  | .num n => printNumber n
  | .str s => quote s
  | .arr items => "[" ++ printItems items ++ "]"
  | .obj entries => "\x7b" ++ printEntries entries ++ "\x7d"

/-- Items with commas between them. -/
def printItems : List Json → String
  | [] => ""
  | [x] => print x
  | x :: y :: rest => print x ++ "," ++ printItems (y :: rest)

/-- Entries with commas between them. -/
def printEntries : List (String × Json) → String
  | [] => ""
  | [(k, v)] => quote k ++ ":" ++ print v
  | (k, v) :: e :: rest => quote k ++ ":" ++ print v ++ "," ++ printEntries (e :: rest)

end

end PipelineSql.Json
