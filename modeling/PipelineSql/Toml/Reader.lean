import PipelineSql.Json.Reader
import PipelineSql.Toml.Basic

/-!
# Reading TOML text

Tables, dotted and quoted keys, strings on one line, booleans, numbers, arrays, inline tables and
comments. Strings over several lines, dates and arrays of tables are refused. As with JSON, the
depth argument of the descent is bounded by the length of the text.
-/

namespace PipelineSql.Toml

/-- A blank inside a line. -/
def isBlank (c : Char) : Bool :=
  c = ' ' || c = '\t'

/-- The text after leading blanks. -/
def skipBlanks (cs : List Char) : List Char :=
  cs.dropWhile isBlank

/-- A character that may not be written as such. -/
def isControl (c : Char) : Bool :=
  (c.toNat < 32 && c != '\t') || c.toNat = 127

/-- The text after a comment, if it starts with one. -/
def skipComment? : List Char → Option (List Char)
  | '#' :: cs =>
    match cs.span fun c => !isControl c with
    | (_, []) => some []
    | (_, '\n' :: rest) => some ('\n' :: rest)
    | (_, '\r' :: '\n' :: rest) => some ('\n' :: rest)
    | _ => none
  | cs => some cs

/-- The text after a line break. -/
def skipNewline? : List Char → Option (List Char)
  | '\n' :: cs | '\r' :: '\n' :: cs => some cs
  | _ => none

/-- The text after the end of a line: blanks, a comment, and a line break or the end of the text. -/
def endLine? (cs : List Char) : Option (List Char) := do
  match ← skipComment? (skipBlanks cs) with
  | [] => some []
  | rest => skipNewline? rest

/-- The text after blanks, comments and line breaks. -/
def skipLines : Nat → List Char → Option (List Char)
  | 0, cs => some cs
  | fuel + 1, cs => do
    let rest ← skipComment? (skipBlanks cs)
    match skipNewline? rest with
    | some rest => skipLines fuel rest
    | none => some rest

/-- The number that hexadecimal digits spell. -/
def hexNumber? (cs : List Char) : Option Nat :=
  cs.foldlM (fun n c => (Json.hexValue? c).map fun d => 16 * n + d) 0

/-- The character after an escape of `n` hexadecimal digits. -/
def readCodePoint? (n : Nat) (cs : List Char) : Option (Char × List Char) := do
  guard (n ≤ cs.length)
  let code ← hexNumber? (cs.take n)
  guard code.isValidChar
  some (Char.ofNat code, cs.drop n)

/-- The character after a backslash. -/
def readEscape? : List Char → Option (Char × List Char)
  | 'u' :: cs => readCodePoint? 4 cs
  | 'U' :: cs => readCodePoint? 8 cs
  | '/' :: _ => none
  | c :: cs => (Json.shortEscape? c).map (·, cs)
  | [] => none

/-- The characters of a string in double quotes up to its end, and the text after it. -/
def readBasic? : Nat → List Char → Option (List Char × List Char)
  | 0, _ => none
  | fuel + 1, cs =>
    match cs with
    | [] => none
    | '"' :: rest => some ([], rest)
    | '\\' :: rest => do
      let (c, rest) ← readEscape? rest
      let (s, rest) ← readBasic? fuel rest
      some (c :: s, rest)
    | c :: rest => do
      guard (!isControl c)
      let (s, rest) ← readBasic? fuel rest
      some (c :: s, rest)

/-- A string in single quotes, which has no escapes, after its first quote. -/
def readPlain? (cs : List Char) : Option (String × List Char) :=
  match cs.span fun c => c != '\'' && !isControl c with
  | (s, '\'' :: rest) => some (String.ofList s, rest)
  | _ => none

/-- A string in either kind of quotes. -/
def readString? : List Char → Option (String × List Char)
  | '"' :: cs => do
    let (s, rest) ← readBasic? (cs.length + 1) cs
    some (String.ofList s, rest)
  | '\'' :: cs => readPlain? cs
  | _ => none

/-- A character of a key without quotes. -/
def isBareKeyChar (c : Char) : Bool :=
  c.isAlphanum || c = '_' || c = '-'

/-- One part of a key. -/
def readKeyPart? (cs : List Char) : Option (String × List Char) :=
  match cs.span isBareKeyChar with
  | ([], _) => readString? cs
  | (key, rest) => some (String.ofList key, rest)

/-- A dotted key. -/
def readKey? : Nat → List Char → Option (List String × List Char)
  | 0, _ => none
  | fuel + 1, cs => do
    let (part, rest) ← readKeyPart? (skipBlanks cs)
    match skipBlanks rest with
    | '.' :: rest => do
      let (parts, rest) ← readKey? fuel rest
      some (part :: parts, rest)
    | rest => some ([part], rest)

/-- Digits, possibly with single underscores between them. -/
def isGrouped (isDigit : Char → Bool) (cs : List Char) : Bool :=
  ((String.ofList cs).splitOn "_").all fun part => part != "" && part.toList.all isDigit

/-- The text without a sign in front. -/
def dropSign : List Char → List Char
  | '+' :: cs | '-' :: cs => cs
  | cs => cs

/-- The part before a separator, and the part after it if there is one. -/
def cut (isSeparator : Char → Bool) (cs : List Char) : List Char × Option (List Char) :=
  match cs.span fun c => !isSeparator c with
  | (before, []) => (before, none)
  | (before, _ :: after) => (before, some after)

/-- Decimal digits without a needless zero in front. -/
def isWhole (cs : List Char) : Bool :=
  isGrouped Char.isDigit cs && (cs.length = 1 || cs.head? != some '0')

/-- A number in decimal digits, possibly with a fraction and an exponent. -/
def isDecimal (cs : List Char) : Bool :=
  let (mantissa, exponent) := cut (fun c => c = 'e' || c = 'E') (dropSign cs)
  let (whole, fraction) := cut (· = '.') mantissa
  isWhole whole && fraction.all (isGrouped Char.isDigit) &&
    exponent.all fun e => isGrouped Char.isDigit (dropSign e)

/-- A number token. -/
def isNumber : List Char → Bool
  | '0' :: 'x' :: cs => isGrouped (fun c => (Json.hexValue? c).isSome) cs
  | '0' :: 'o' :: cs => isGrouped (fun c => '0' ≤ c && c ≤ '7') cs
  | '0' :: 'b' :: cs => isGrouped (fun c => c = '0' || c = '1') cs
  | cs => isDecimal cs || ["inf", "nan"].contains (String.ofList (dropSign cs))

/-- A boolean or a number. -/
def readToken? (cs : List Char) : Option (Value × List Char) :=
  let (token, rest) := cs.span fun c => isBareKeyChar c || c = '+' || c = '.'
  let text := String.ofList token
  if text = "true" then some (.boolean true, rest)
  else if text = "false" then some (.boolean false, rest)
  else if isNumber token then some (.number text, rest)
  else none

mutual

/-- A value at the head of the text. -/
def readValue? : Nat → List Char → Option (Value × List Char)
  | 0, _ => none
  | depth + 1, cs =>
    match cs with
    | '"' :: _ | '\'' :: _ => do
      let (s, rest) ← readString? cs
      some (.string s, rest)
    | '[' :: rest => do
      let (items, rest) ← readItems? depth rest
      some (.array items, rest)
    | '\x7b' :: rest =>
      match skipBlanks rest with
      | '\x7d' :: rest => some (.table .inline [], rest)
      | rest => do
        let (entries, rest) ← readEntries? depth [] rest
        some (.table .inline entries, rest)
    | _ => readToken? cs

/-- The items up to the closing bracket. -/
def readItems? : Nat → List Char → Option (List Value × List Char)
  | 0, _ => none
  | depth + 1, cs => do
    match ← skipLines cs.length cs with
    | ']' :: rest => some ([], rest)
    | cs => do
      let (item, rest) ← readValue? depth cs
      match ← skipLines rest.length rest with
      | ']' :: rest => some ([item], rest)
      | ',' :: rest => do
        let (items, rest) ← readItems? depth rest
        some (item :: items, rest)
      | _ => none

/-- The entries up to the closing brace. -/
def readEntries? : Nat → Entries → List Char → Option (Entries × List Char)
  | 0, _, _ => none
  | depth + 1, done, cs => do
    let (key, rest) ← readKey? (cs.length + 1) cs
    match rest with
    | '=' :: rest => do
      let (value, rest) ← readValue? depth (skipBlanks rest)
      let done ← done.assign value key
      match skipBlanks rest with
      | ',' :: rest => readEntries? depth done rest
      | '\x7d' :: rest => some (done, rest)
      | _ => none
    | _ => none

end

/-- A header after its bracket: the key of the table. -/
def readHeader? (cs : List Char) : Option (List String × List Char) := do
  let (key, rest) ← readKey? (cs.length + 1) cs
  match rest with
  | ']' :: rest => some (key, ← endLine? rest)
  | _ => none

/-- A line that sets a key. -/
def readSetting? (cs : List Char) : Option (List String × Value × List Char) := do
  let (key, rest) ← readKey? (cs.length + 1) cs
  match rest with
  | '=' :: rest => do
    let (value, rest) ← readValue? (rest.length + 1) (skipBlanks rest)
    some (key, value, ← endLine? rest)
  | _ => none

/-- The document with the lines of a text added, the first of them inside the table `here`. -/
def readDocument? : Nat → List String → Entries → List Char → Option Entries
  | 0, _, _, _ => none
  | fuel + 1, here, doc, cs => do
    match ← skipLines cs.length cs with
    | [] => some doc
    | '[' :: rest => do
      let (path, rest) ← readHeader? rest
      readDocument? fuel path (← doc.openTable path) rest
    | cs => do
      let (key, value, rest) ← readSetting? cs
      readDocument? fuel here (← doc.modifyAt (·.assign value key) here) rest

/-- The document that a whole text spells. -/
def parse? (text : String) : Option Entries :=
  readDocument? (text.length + 1) [] [] text.toList

end PipelineSql.Toml
