import PipelineSql.Render.Array

/-!
# Accumulators

An accumulator is an aggregate over the rows of a group. Outside a group it reduces an array.
-/

namespace PipelineSql.Render

/-- The argument of an accumulator. -/
def argumentOf (name : String) (arg : Option Reading) : Result Reading :=
  match arg with
  | some r => pure r
  | none => fault (.noArgument name)

/-- The type that the argument of `$min` or `$max` is known to have. A column that an earlier stage
computed carries its type already. -/
def knownType? (env : Env) : Expr → Option JsonType
  | .field f =>
    f.type.or <|
      match env.resolve f.path with
      | .value _ false | .missing => some .varchar
      | _ => none
  | .lit l => l.type? env.dialect
  | .arith op operands => if op.isExtreme && operands.length = 1 then none else some .number
  | .lookupSize .. => some .number
  | _ => none

/-- The least or greatest value, each aggregate followed by `window`. If the type is not known, the
value is read both as a number and as text. -/
def extreme (name : String) (greatest : Bool) (arg : Reading) (window : Fragment) :
    Render Fragment := do
  match knownType? (← read) arg.expr with
  | some type =>
    let f ← arg.value (some type)
    return Fragment.call (if greatest then "MAX" else "MIN") [f] ++ window
  | none =>
    warn (.operandType name)
    let n ← arg.number
    let s ← arg.value (some .varchar)
    return mixedExtreme n s greatest window

/-- A sum over a group; a sum of ones is a count. -/
def summed (arg : Reading) : Render Fragment := do
  match arg.expr.literal? with
  | some (.int 1) => return "COUNT(*)"
  | some l =>
    if l.isNumeric then return "COUNT(*) * " ++ (← literal l)
    else return Fragment.call "NVL" [Fragment.call "SUM" [← arg.number], "0"]
  | none => return Fragment.call "NVL" [Fragment.call "SUM" [← arg.number], "0"]

/-- The distinct values of a group as the text of a JSON array. -/
def collected (arg : Reading) : Render Fragment := do
  let v ← arg.scalar
  let quote := Fragment.string "\""
  let list := "LISTAGG" ++ Fragment.paren
    ("DISTINCT " ++ quote ++ " || " ++ v ++ " || " ++ quote ++ ", " ++ Fragment.string ",")
  return Fragment.string "[" ++ " || " ++ list ++ " WITHIN GROUP " ++
    Fragment.paren ("ORDER BY " ++ v) ++ " || " ++ Fragment.string "]"

/-- An accumulator as an aggregate, and whether the result is JSON text. -/
def aggregate (op : Accumulator) (arg : Option Reading) : Render (Fragment × Bool) := do
  match op with
  | .count => return ("COUNT(*)", false)
  | .sum => return (← summed (← argumentOf op.name arg), false)
  | .avg => return (Fragment.call "AVG" [← (← argumentOf op.name arg).number], false)
  | .stdDevPop => return (Fragment.call "STDDEV_POP" [← (← argumentOf op.name arg).number], false)
  | .stdDevSamp =>
    return (Fragment.call "STDDEV_SAMP" [← (← argumentOf op.name arg).number], false)
  | .min => return (← extreme op.name false (← argumentOf op.name arg) [], false)
  | .max => return (← extreme op.name true (← argumentOf op.name arg) [], false)
  | .first =>
    warn (.rowOrder op.name)
    let f ← (← argumentOf op.name arg).scalar
    return (Fragment.call "MIN" [f] ++ " KEEP (DENSE_RANK FIRST ORDER BY ROWNUM)", false)
  | .last =>
    warn (.rowOrder op.name)
    let f ← (← argumentOf op.name arg).scalar
    return (Fragment.call "MAX" [f] ++ " KEEP (DENSE_RANK LAST ORDER BY ROWNUM)", false)
  | .push =>
    let (f, json) ← (← argumentOf op.name arg).json
    return (Fragment.call "JSON_ARRAYAGG" [f.formatted json], true)
  | .addToSet =>
    warn .scalarSet
    return (← collected (← argumentOf op.name arg), true)

/-- An accumulator as a reduction of an array. -/
def overArray (op : Accumulator) (arg : Option Reading) : Render Fragment := do
  match op with
  | .sum => return Fragment.call "NVL" [← numberAggregate "SUM" (← argumentOf op.name arg), "0"]
  | .avg => numberAggregate "AVG" (← argumentOf op.name arg)
  | .stdDevPop => numberAggregate "STDDEV_POP" (← argumentOf op.name arg)
  | .stdDevSamp => numberAggregate "STDDEV_SAMP" (← argumentOf op.name arg)
  | .min => elementExtreme false (← argumentOf op.name arg)
  | .max => elementExtreme true (← argumentOf op.name arg)
  | .first => endElement (← argumentOf op.name arg) "[0]" none
  | .last => endElement (← argumentOf op.name arg) "[last]" none
  | .count | .push | .addToSet => unsupported (.groupOnly op.name)

end PipelineSql.Render
