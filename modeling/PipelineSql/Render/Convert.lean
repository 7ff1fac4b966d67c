import PipelineSql.Render.Reading

/-!
# Conversions and types
-/

namespace PipelineSql

/-- Is the number in the range of a signed 32-bit word? -/
def isInt32 (n : Int) : Bool :=
  -(Nat.pow 2 31 : Int) ≤ n && n < (Nat.pow 2 31 : Int)

/-- The type of a constant, by its name in a pipeline. -/
def Literal.typeName : Literal → String
  | .null => "null"
  | .bool _ => "bool"
  | .int n => if isInt32 n then "int" else "long"
  | .double _ => "double"
  | .string _ => "string"
  | .array _ => "array"

namespace Render

/-- A date text with its mark of universal time written as an offset. -/
def withOffset (f : Fragment) : Fragment :=
  Fragment.call "REPLACE" [f, Fragment.string "Z", Fragment.string "+00:00"]

/-- A value converted to a target. -/
def cast (d : Dialect) (target : Conversion) (f : Fragment) : Result Fragment :=
  match target with
  | .toInt | .toLong => pure (Fragment.call "TRUNC" [Fragment.call "TO_NUMBER" [f]])
  | .toDouble => pure (Fragment.call "TO_BINARY_DOUBLE" [f])
  | .toDecimal => pure (Fragment.call "TO_NUMBER" [f])
  | .toString => pure (Fragment.call "TO_CHAR" [f])
  | .toBool =>
    let isFalse := Condition.among (Fragment.call "LOWER" [Fragment.call "TO_CHAR" [f]])
      falseTexts false
    pure (Fragment.cases
      [((Condition.isNull f).fragment, "NULL"), (isFalse.fragment, d.bool false)]
      (some (d.bool true)))
  | .toDate =>
    pure (Fragment.call "TO_TIMESTAMP_TZ" [withOffset f, Fragment.string zonedTimestampFormat])
  | .toObjectId => pure f
  | .type | .convert | .isNumber => fault (.notTarget target.name)

/-- The check whether a conversion would succeed, for targets where it may fail. -/
def validity? (target : Conversion) (f : Fragment) : Option Fragment :=
  match target with
  | .toInt | .toLong | .toDecimal => some (Fragment.call "VALIDATE_CONVERSION" [f ++ " AS NUMBER"])
  | .toDouble => some (Fragment.call "VALIDATE_CONVERSION" [f ++ " AS BINARY_DOUBLE"])
  | .toDate => some (Fragment.call "VALIDATE_CONVERSION"
      [withOffset f ++ " AS TIMESTAMP WITH TIME ZONE", Fragment.string zonedTimestampFormat])
  | _ => none

/-- The case in which a value stands for the result; none if there is no such value. -/
def branch (c : Condition) : Option Reading → Render (List (Fragment × Fragment))
  | none => pure []
  | some r => return [(c.fragment, ← r.scalar)]

/-- `$convert`, with values for null and for what cannot be converted. -/
def converted (arg : Reading) (target : Option Conversion) (onError onNull : Option Reading) :
    Render Fragment := do
  match target with
  | none => fault .noTarget
  | some target =>
    let f ← arg.scalar
    let result ← cast (← read).dialect target f
    if onError.isNone && onNull.isNone then return result
    let ifNull ← branch (.isNull f) onNull
    let ifInvalid ← match validity? target f with
      | some check => branch (.relation .eq check "0") onError
      | none => pure []
    return Fragment.cases (ifNull ++ ifInvalid) (some result)

/-- Is the expression a document? -/
def isDocument : Expr → Bool
  | .document _ | .compoundId _ => true
  | _ => false

/-- The place of a field inside a JSON value, if the expression is one. -/
def placeOf? (env : Env) (e : Expr) : Option (Fragment × String) :=
  e.field? >>= fun f => env.location? f.path

/-- `$type` -/
def typeName (arg : Reading) : Render Fragment := do
  match arg.expr.literal? with
  | some l => literal (.string l.typeName)
  | none =>
    if isDocument arg.expr then literal (.string "object")
    else
      warn .typeNames
      let env ← read
      match placeOf? env arg.expr with
      | some (doc, path) =>
        let t := jsonValue env.dialect doc (path ++ ".type()") none
        let names := ["number", "double", "boolean", "bool", "timestamp", "date"]
        return Fragment.call "NVL"
          [Fragment.call "DECODE" ([t] ++ names.map Fragment.string ++ [t]),
            Fragment.string "missing"]
      | none =>
        let v ← arg.scalar
        let isNumber := Condition.relation .eq
          (Fragment.call "VALIDATE_CONVERSION" [v ++ " AS NUMBER"]) "1"
        return Fragment.cases
          [((Condition.isNull v).fragment, Fragment.string "null"),
            (isNumber.fragment, Fragment.string "double")]
          (some (Fragment.string "string"))

/-- `$isNumber` -/
def numberTest (arg : Reading) : Render Condition := do
  match arg.expr.literal? with
  | some l => return .constant l.isNumeric
  | none =>
    let env ← read
    match placeOf? env arg.expr with
    | some (doc, path) =>
      return .relation .eq (jsonValue env.dialect doc (path ++ ".type()") none)
        (Fragment.string "number")
    | none =>
      warn .numericStrings
      let v ← arg.scalar
      return .both (.isNotNull v)
        (.relation .eq (Fragment.call "VALIDATE_CONVERSION" [v ++ " AS NUMBER"]) "1")

/-- A conversion. The test for a number is a condition and not written here. -/
def conversion (op : Conversion) (arg : Reading) (target : Option Conversion)
    (onError onNull : Option Reading) : Render Fragment := do
  match op with
  | .convert => converted arg target onError onNull
  | .type => typeName arg
  | _ =>
    let f ← arg.scalar
    cast (← read).dialect op f

end Render

end PipelineSql
