import PipelineSql.Json.Basic

/-!
# Reading JSON text

Recursive descent over the characters. The depth argument bounds the nesting; a text of `n`
characters nests no deeper than `n`, so reading with its length loses nothing.
-/

namespace PipelineSql.Json

/-- The blanks between tokens. -/
def isBlank (c : Char) : Bool :=
  c = ' ' || c = '\n' || c = '\r' || c = '\t'

/-- The text after leading blanks. -/
def skipBlanks (cs : List Char) : List Char :=
  cs.dropWhile isBlank

/-- The number that decimal digits spell. -/
def natOfDigits (cs : List Char) : Nat :=
  cs.foldl (fun n c => 10 * n + (c.toNat - '0'.toNat)) 0

/-- Leading digits and what follows them. -/
def spanDigits (cs : List Char) : List Char × List Char :=
  cs.span Char.isDigit

/-- The value of a hexadecimal digit. -/
def hexValue? (c : Char) : Option Nat :=
  if c.isDigit then some (c.toNat - '0'.toNat)
  else if 'a' ≤ c ∧ c ≤ 'f' then some (c.toNat - 'a'.toNat + 10)
  else if 'A' ≤ c ∧ c ≤ 'F' then some (c.toNat - 'A'.toNat + 10)
  else none

/-- Four hexadecimal digits. -/
def hex4? : List Char → Option (Nat × List Char)
  | a :: b :: c :: d :: rest => do
    let high := (← hexValue? a) * 16 + (← hexValue? b)
    let low := (← hexValue? c) * 16 + (← hexValue? d)
    let n := high * 256 + low
    some (n, rest)
  | _ => none

/-- The character after `\u`, which a high surrogate takes from two escapes. -/
def unicode? (cs : List Char) : Option (Char × List Char) := do
  let (n, rest) ← hex4? cs
  if 0xD800 ≤ n ∧ n < 0xDC00 then
    match rest with
    | '\\' :: 'u' :: rest => do
      let (m, rest) ← hex4? rest
      if 0xDC00 ≤ m ∧ m < 0xE000 then
        some (Char.ofNat (0x10000 + (n - 0xD800) * 0x400 + (m - 0xDC00)), rest)
      else none
    | _ => none
  else if 0xDC00 ≤ n ∧ n < 0xE000 then none
  else some (Char.ofNat n, rest)

/-- The character of a one-letter escape. -/
def shortEscape? (c : Char) : Option Char :=
  if c = '"' ∨ c = '\\' ∨ c = '/' then some c
  else if c = 'n' then some '\n'
  else if c = 'r' then some '\r'
  else if c = 't' then some '\t'
  else if c = 'b' then some (Char.ofNat 8)
  else if c = 'f' then some (Char.ofNat 12)
  else none

/-- The characters up to the closing quote, and the text after it. -/
def readChars? : Nat → List Char → List Char → Option (List Char × List Char)
  | 0, _, _ => none
  | _ + 1, _, [] => none
  | fuel + 1, done, c :: cs =>
    if c = '"' then some (done.reverse, cs)
    else if c = '\\' then
      match cs with
      | 'u' :: cs => do
        let (c, cs) ← unicode? cs
        readChars? fuel (c :: done) cs
      | e :: cs => do readChars? fuel ((← shortEscape? e) :: done) cs
      | [] => none
    else if c.toNat < 32 then none
    else readChars? fuel (c :: done) cs

/-- The text of a string whose opening quote has been read. -/
def readString? (cs : List Char) : Option (String × List Char) := do
  let (s, rest) ← readChars? (cs.length + 1) [] cs
  some (String.ofList s, rest)

/-- The digits after a point, which needs at least one. -/
def readFraction? : List Char → Option (List Char × List Char)
  | '.' :: cs =>
    match spanDigits cs with
    | ([], _) => none
    | (ds, rest) => some (ds, rest)
  | cs => some ([], cs)

/-- The exponent, if the text goes on with one. -/
def readExponent? : List Char → Option (Option Int × List Char)
  | c :: cs =>
    if c = 'e' ∨ c = 'E' then
      let (negative, cs) := match cs with
        | '-' :: cs => (true, cs)
        | '+' :: cs => (false, cs)
        | cs => (false, cs)
      match spanDigits cs with
      | ([], _) => none
      | (ds, rest) =>
        let n : Int := natOfDigits ds
        some (some (if negative then -n else n), rest)
    else some (none, c :: cs)
  | [] => some (none, [])

/-- The digits before a point: at least one, and no zero in front of others. -/
def isWhole : List Char → Bool
  | [] => false
  | ['0'] => true
  | c :: _ => c != '0'

/-- A number: an integer token is an integer except for `-0`, all else a binary64 number. -/
def readNumber? (cs : List Char) : Option (Number × List Char) := do
  let (negative, cs) := match cs with
    | '-' :: cs => (true, cs)
    | cs => (false, cs)
  let (whole, cs) := spanDigits cs
  guard (isWhole whole)
  let (fraction, afterFraction) ← readFraction? cs
  let (exponent, rest) ← readExponent? afterFraction
  let n := natOfDigits whole
  if fraction.isEmpty ∧ exponent = none ∧ ¬ (negative ∧ n = 0) then
    some (.int (if negative then -(n : Int) else n), rest)
  else
    let d : Decimal :=
      ⟨negative, natOfDigits (whole ++ fraction), exponent.getD 0 - fraction.length⟩
    some (.float d.toFloat, rest)

/-- A word of the grammar. -/
def readWord? (word : String) (value : Json) (cs : List Char) : Option (Json × List Char) :=
  (word.toList.isPrefixOf? cs).map (value, ·)

mutual

/-- A value at the head of the text, nested at most as deep as the first argument says. -/
def readValue? : Nat → List Char → Option (Json × List Char)
  | 0, _ => none
  | depth + 1, cs =>
    match skipBlanks cs with
    | [] => none
    | '"' :: cs => do
      let (s, rest) ← readString? cs
      some (.str s, rest)
    | '[' :: cs =>
      match skipBlanks cs with
      | ']' :: rest => some (.arr [], rest)
      | cs => do
        let (items, rest) ← readItems? depth [] cs
        some (.arr items, rest)
    | '\x7b' :: cs =>
      match skipBlanks cs with
      | '\x7d' :: rest => some (.obj [], rest)
      | cs => do
        let (entries, rest) ← readEntries? depth [] cs
        some (.obj entries, rest)
    | 't' :: cs => readWord? "rue" (.bool true) cs
    | 'f' :: cs => readWord? "alse" (.bool false) cs
    | 'n' :: cs => readWord? "ull" .null cs
    | cs => do
      let (n, rest) ← readNumber? cs
      some (.num n, rest)

/-- The items up to the closing bracket. -/
def readItems? : Nat → List Json → List Char → Option (List Json × List Char)
  | 0, _, _ => none
  | depth + 1, done, cs => do
    let (item, rest) ← readValue? depth cs
    match skipBlanks rest with
    | ',' :: rest => readItems? depth (item :: done) rest
    | ']' :: rest => some ((item :: done).reverse, rest)
    | _ => none

/-- The entries up to the closing brace. -/
def readEntries? : Nat → List (String × Json) → List Char →
    Option (List (String × Json) × List Char)
  | 0, _, _ => none
  | depth + 1, done, cs =>
    match skipBlanks cs with
    | '"' :: cs => do
      let (key, rest) ← readString? cs
      match skipBlanks rest with
      | ':' :: rest => do
        let (value, rest) ← readValue? depth rest
        let done := insert key value done
        match skipBlanks rest with
        | ',' :: rest => readEntries? depth done rest
        | '\x7d' :: rest => some (done, rest)
        | _ => none
      | _ => none
    | _ => none

end

/-- The value that a whole text spells. -/
def parse? (text : String) : Option Json :=
  let cs := text.toList
  match readValue? (cs.length + 1) cs with
  | some (value, rest) => if (skipBlanks rest).isEmpty then some value else none
  | none => none

end PipelineSql.Json
