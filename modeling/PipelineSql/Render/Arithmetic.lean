import PipelineSql.Render.Elements

/-!
# Arithmetic and dates
-/

namespace PipelineSql.Render

/-- An arithmetic operation. `$max` and `$min` of one operand reduce an array. -/
def arithmetic (op : Arithmetic) (operands : List Reading) : Render Fragment := do
  match op.sign?, operands with
  | some sign, rs => return Fragment.paren (Fragment.joined s!" {sign} " (← rs.mapM (·.number)))
  | none, [] => fault (.malformed op.name)
  | none, first :: rest =>
    if op.isExtreme && rest.isEmpty then elementExtreme (op = .max) first
    else if op = .log10 then return Fragment.call "LOG" ["10", ← first.number]
    else
      if op.isExtreme then warn (.nullOperand op.name)
      let taken := if op.acceptsSecond || op.isExtreme then rest else []
      if taken.length < rest.length then warn (.secondOperand op.name)
      return Fragment.call op.function (← (first :: taken).mapM (·.number))

/-- Is the expression a conversion to a date? -/
def isDateConversion : Expr → Bool
  | .convert op _ target _ _ => op = .toDate || target = some .toDate
  | _ => false

/-- Is the expression the current time? -/
def isNow : Expr → Bool
  | .var "NOW" none => true
  | _ => false

/-- A timestamp; all but dates and the current time is read as text. -/
def timestamp (arg : Reading) : Render Fragment := do
  if isDateConversion arg.expr then arg.scalar
  else if isNow arg.expr then return "SYSTIMESTAMP"
  else return Fragment.call "TO_TIMESTAMP" [← arg.scalar, Fragment.string timestampFormat]

/-- A part of a timestamp. -/
def extracted (part : String) (t : Fragment) : Fragment :=
  "EXTRACT" ++ Fragment.paren (part ++ " FROM " ++ t)

/-- A part of a date. Weeks of the database start on Monday, while `$dayOfWeek` counts from Sunday;
the one part that is left is the day of the year. -/
def datePart (part : DatePart) (arg : Reading) : Render Fragment := do
  let t ← timestamp arg
  match part.extract?, part with
  | some name, _ => return extracted name t
  | none, .second => return Fragment.call "FLOOR" [extracted "SECOND" t]
  | none, .millisecond =>
    return Fragment.call "MOD" [Fragment.call "FLOOR" [extracted "SECOND" t ++ " * 1000"], "1000"]
  | none, .dayOfWeek =>
    let day := Fragment.call "TRUNC" [t]
    let monday := Fragment.call "TRUNC" [t, Fragment.string "IW"]
    return Fragment.call "MOD" [day ++ " - " ++ monday ++ " + 1", "7"] ++ " + 1"
  | none, _ =>
    return Fragment.call "TO_NUMBER" [Fragment.call "TO_CHAR" [t, Fragment.string "DDD"]]

end PipelineSql.Render
