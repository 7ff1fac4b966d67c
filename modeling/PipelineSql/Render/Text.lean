import PipelineSql.Render.Reading

/-!
# Text

Positions count from 0 in a pipeline and from 1 in SQL, and the empty string is null in SQL.
-/

namespace PipelineSql.Render

/-- Concatenation is null if any part is, unlike the operator of SQL. -/
def concatenation (args : List Reading) : Render Fragment := do
  let parts ← args.mapM (·.scalar)
  let joined := Fragment.joined " || " parts
  let nullable := (args.zip parts).filter fun (r, _) => r.expr.literal?.isNone
  if nullable.isEmpty then return joined
  let isNull := Fragment.joined " OR " (nullable.map fun (_, f) => (Condition.isNull f).fragment)
  return Fragment.cases [(isNull, "NULL")] (some joined)

/-- The integer after another in 64 bits. Behind the largest one comes the smallest one, unless the
sum is checked. -/
def successor (i : Int) : Render Int := do
  if (← read).checked && !isInt64 (i + 1) then fault .overflow
  return Int.bmod (i + 1) wordCount

/-- A position counted from 1. -/
def fromOne (index : Reading) : Render Fragment := do
  match index.expr.int? with
  | some i => literal (.int (← successor i))
  | none => return Fragment.paren ((← index.number) ++ " + 1")

/-- A part of a text; a negative length reaches to its end. -/
def substring (text start : Reading) (length : Option Reading) : Render Fragment := do
  let t ← text.scalar
  let s ← fromOne start
  match length with
  | none => return Fragment.call "SUBSTR" [t, s]
  | some n =>
    if n.expr.int?.any (· < 0) then return Fragment.call "SUBSTR" [t, s]
    else return Fragment.call "SUBSTR" [t, s, ← n.number]

/-- A text without blanks, or without given characters, at its ends. -/
def trimmed (op : TextOp) (text : Reading) (chars : Option Reading) : Render Fragment := do
  let t ← text.scalar
  match op, chars with
  | .trim, none => return Fragment.call "TRIM" [t]
  | .trim, some c =>
    let c ← c.scalar
    return Fragment.call "LTRIM" [Fragment.call "RTRIM" [t, c], c]
  | _, _ =>
    let function := if op = .ltrim then "LTRIM" else "RTRIM"
    match chars with
    | none => return Fragment.call function [t]
    | some c => return Fragment.call function [t, ← c.scalar]

/-- The pieces of a text between separators, as a JSON array. -/
def pieces (text separator : Reading) : Render Fragment := do
  warn .splitEscapes
  let t ← text.scalar
  let s ← separator.scalar
  let inner := Fragment.call "REPLACE" [t, s, Fragment.string "\",\""]
  return Fragment.call "JSON_QUERY"
    [Fragment.string "[\"" ++ " || " ++ inner ++ " || " ++ Fragment.string "\"]",
      Fragment.string "$"]

/-- A text up to a position. -/
def upTo (text : Reading) : Option Reading → Render Fragment
  | none => text.scalar
  | some stop => do
    let t ← text.scalar
    return Fragment.call "SUBSTR" [t, "1", ← stop.number]

/-- The position of a text in another, counted from 0, or -1. -/
def textPosition (text part : Reading) (start stop : Option Reading) : Render Fragment := do
  let t ← upTo text stop
  let p ← part.scalar
  match start with
  | none => return Fragment.call "INSTR" [t, p] ++ " - 1"
  | some s => return Fragment.call "INSTR" [t, p, ← fromOne s] ++ " - 1"

/-- The match parameters for regular expression options. -/
def regexFlags : List Char → Result (List Char)
  | [] => pure []
  | c :: cs => do
    let flag ← if c = 'i' || c = 'm' || c = 'x' then pure c
      else if c = 's' then pure 'n'
      else unsupported (.regexOption c)
    return flag :: (← regexFlags cs)

/-- The match parameters as a last argument; none if there are no options. -/
def regexOptions (options : Option Reading) : Result (List Fragment) :=
  match options with
  | none => pure []
  | some r =>
    match r.expr.literal? >>= Literal.string? with
    | none => fault .regexOptions
    | some text => do
      let flags ← regexFlags text.toList
      return if flags.isEmpty then [] else [Fragment.string (String.ofList flags)]

/-- Does a text match a regular expression? -/
def regexTest (text pattern : Reading) (options : Option Reading) : Render Condition := do
  let flags ← regexOptions options
  let t ← text.scalar
  let p ← pattern.scalar
  return .test (Fragment.call "REGEXP_LIKE" ([t, p] ++ flags))

/-- The first match of a regular expression, as a document. -/
def regexMatch (text pattern : Reading) (options : Option Reading) : Render Fragment := do
  warn .captureGroups
  let flags ← regexOptions options
  let t ← text.scalar
  let p ← pattern.scalar
  let position := Fragment.call "REGEXP_INSTR" ([t, p, "1", "1", "0"] ++ flags)
  let found := Fragment.call "REGEXP_SUBSTR" ([t, p, "1", "1"] ++ flags)
  let document := Fragment.call "JSON_OBJECT"
    [Fragment.string "match" ++ " VALUE " ++ found,
      Fragment.string "idx" ++ " VALUE " ++ position ++ " - 1",
      Fragment.string "captures" ++ " VALUE " ++ Fragment.call "JSON_ARRAY" []]
  return Fragment.cases [((Condition.relation .gt position "0").fragment, document)] none

/-- A text with the first occurrence of another replaced. -/
def replacedOnce (text find replacement : Reading) : Render Fragment := do
  let t ← text.scalar
  let f ← find.scalar
  let r ← replacement.scalar
  let position := Fragment.call "INSTR" [t, f]
  let before := Fragment.call "SUBSTR" [t, "1", position ++ " - 1"]
  let after := Fragment.call "SUBSTR" [t, position ++ " + " ++ Fragment.call "LENGTH" [f]]
  return Fragment.cases
    [((Condition.relation .gt position "0").fragment, before ++ " || " ++ r ++ " || " ++ after)]
    (some t)

/-- An operation on text. The test for a match is a condition and not written here. -/
def text (op : TextOp) (args : List Reading) : Render Fragment := do
  match op, args with
  | .concat, rs => concatenation rs
  | .toLower, t :: _ => return Fragment.call "LOWER" [← t.scalar]
  | .toUpper, t :: _ => return Fragment.call "UPPER" [← t.scalar]
  | .substr, t :: start :: rest => substring t start rest.head?
  | .trim, t :: rest | .ltrim, t :: rest | .rtrim, t :: rest => trimmed op t rest.head?
  | .length, t :: _ => return Fragment.call "NVL" [Fragment.call "LENGTH" [← t.scalar], "0"]
  | .split, t :: separator :: _ => pieces t separator
  | .indexOf, t :: part :: rest => textPosition t part rest[0]? rest[1]?
  | .regexFind, t :: pattern :: rest => regexMatch t pattern rest.head?
  | .replaceOne, t :: find :: replacement :: _ => replacedOnce t find replacement
  | .replaceAll, t :: find :: replacement :: _ => do
    let t ← t.scalar
    let f ← find.scalar
    let r ← replacement.scalar
    return Fragment.call "REPLACE" [t, f, r]
  | _, _ => fault (.malformed op.name)

end PipelineSql.Render
