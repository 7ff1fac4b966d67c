import PipelineSql.Render.Reading

/-!
# Comparisons, connectives and presence

An absent field is null in SQL. So `$ne` also holds of null, null in a list matches null, and a
comparison with null is a null test.
-/

namespace PipelineSql

mutual

/-- The type as which the other side of a comparison with a literal is extracted; an array counts as
its first typed item. -/
def Literal.type? (d : Dialect) : Literal → Option JsonType
  | .null => none
  | .bool _ => some (if d.hasBoolean then .boolean else .varchar)
  | .int _ | .double _ => some .number
  | .string _ => some .varchar
  | .array items => Literal.firstType? d items

/-- The type of the first literal that has one. -/
def Literal.firstType? (d : Dialect) : List Literal → Option JsonType
  | [] => none
  | l :: ls => (Literal.type? d l).or (Literal.firstType? d ls)

end

namespace Render

/-- Is the value in a list of literals? -/
def membership (left : Reading) (items : List Literal) (negated : Bool) : Render Condition := do
  let hasNull := items.any Literal.isNull
  let values := items.filter fun l => !l.isNull
  let l ← left.value (Literal.firstType? (← read).dialect values)
  if values.isEmpty then return if negated then .isNotNull l else .isNull l
  let fragments ← values.mapM literal
  let listed := Condition.among l fragments negated
  match negated, hasNull with
  | false, false => return listed
  | false, true => return .any [listed, .isNull l]
  | true, false => return .any [.isNull l, listed]
  | true, true => return .all [.isNotNull l, listed]

/-- Is a field an empty array, or not one? -/
def emptiness (path : Path) (negated : Bool) : Render Condition := do
  let env ← read
  match env.location? path with
  | none => unsupported (.notArrayField path.toString)
  | some (doc, place) =>
    let size := jsonValue env.dialect doc (place ++ ".size()") (some .number)
    return .relation (if negated then .gt else .eq) (Fragment.call "NVL" [size, "0"]) "0"

/-- Does a field equal a constant array? -/
def arrayEquality (path : Path) (items : List Literal) (negated : Bool) : Render Condition := do
  if items.isEmpty then emptiness path negated
  else
    let (field, _) := (← read).fieldJson path
    let test := Fragment.call "JSON_EQUAL" [field, Token.literal (.array items)]
    return if negated then .testNot test else .test test

/-- A comparison with null. -/
def nullComparison (op : Comparison) (other : Reading) : Render Condition := do
  match op with
  | .gt | .lt => return .constant false
  | .ne => return .isNotNull (← other.scalar)
  | _ => return .isNull (← other.scalar)

/-- A comparison of two values; the literal side decides the type. -/
def valueComparison (op : Comparison) (left right : Reading) : Render Condition := do
  let d := (← read).dialect
  let typeOf (r : Reading) := r.expr.literal? >>= Literal.type? d
  let type := (typeOf right).or (typeOf left)
  let l ← left.value type
  let r ← right.value type
  match op with
  | .ne => return .any [.isNull l, .relation .ne l r]
  | _ => return .relation op l r

/-- A comparison. -/
def comparison (op : Comparison) (left right : Reading) : Render Condition := do
  if op.isMembership then
    match right.expr.items? with
    | some items => membership left items (op = .notIn)
    | none => fault (.computedMembership op.name)
  else if right.expr.isNull then nullComparison op left
  else if left.expr.isNull then nullComparison op right
  else
    match left.expr, right.expr with
    | .field f, .lit (.array items) =>
      if op = .eq || op = .ne then arrayEquality f.path items (op = .ne)
      else valueComparison op left right
    | _, _ => valueComparison op left right

/-- A connective. -/
def connective (op : Connective) (operands : List Reading) : Render Condition := do
  match op, operands with
  | .and, [r] | .or, [r] => r.condition
  | .and, rs => return .all (← rs.mapM (·.condition))
  | .or, rs => return .any (← rs.mapM (·.condition))
  | .not, r :: _ => return .none [← r.condition]
  | .not, [] => fault (.malformed op.name)
  | .nor, rs => return .none (← rs.mapM (·.condition))

/-- Is a field there? -/
def presence (path : Path) (expected : Bool) : Render Condition := do
  let env ← read
  match env.location? path with
  | some (doc, place) =>
    let test := Fragment.call "JSON_EXISTS" [doc, Fragment.string place]
    return if expected then .test test else .testNot test
  | none =>
    match env.resolve path with
    | .missing => return .constant (!expected)
    | _ =>
      let field := env.fieldValue path none
      return if expected then .isNotNull field else .isNull field

end Render

end PipelineSql
