import PipelineSql.Literal
import PipelineSql.Operator

/-!
# Expressions

One tree covers every computed value of a pipeline: aggregation expressions and filters alike. The
constructors check nothing; `PipelineSql.Expr.Shape` says which trees are sound and
`PipelineSql.Expr.Build` builds sound ones.
-/

namespace PipelineSql

/-- A field of the document, such as `$customer.address.city`. -/
structure FieldPath where
  path : Path
  /-- The type as which the field is extracted, if the pipeline says so. -/
  type : Option JsonType := none
  /-- The JSON column that holds the document. -/
  column : String := "data"
deriving DecidableEq, Repr

namespace FieldPath

/-- The field that a text names, with or without its leading `$`. -/
def ofString (raw : String) : Result FieldPath := do
  let cs := raw.toList
  let cs := (['$'].isPrefixOf? cs).getD cs
  let cs := (['.'].isPrefixOf? cs).getD cs
  if ['$'].isPrefixOf cs then fault (.variableAsField raw)
  let name := String.ofList cs
  checkFieldName name
  return { path := Path.ofString name }

/-- The field as it is written in a pipeline. -/
def display (f : FieldPath) : String :=
  "$" ++ f.path.toString

end FieldPath

/-- A computed value of a pipeline. -/
inductive Expr where
  | field (f : FieldPath)
  /-- `$$name` or `$$name.path`. -/
  | var (name : String) (path : Option Path)
  | lit (value : Literal)
  | compare (op : Comparison) (left right : Expr)
  | logic (op : Connective) (operands : List Expr)
  | arith (op : Arithmetic) (operands : List Expr)
  /-- An array operator: its input array, the index that it may have, and its other arguments; `var`
  names the element in `$filter` and `$map`. -/
  | array (op : ArrayOp) (input index : Option Expr) (args : List Expr) (var : Option String)
  | text (op : TextOp) (args : List Expr)
  | date (part : DatePart) (arg : Expr)
  | cond (test yes no : Expr)
  | ifNull (args : List Expr)
  | switch (branches : List (Expr × Expr)) (default : Option Expr)
  | accumulate (op : Accumulator) (arg : Option Expr)
  /-- A group key made of named parts. -/
  | compoundId (fields : List (String × Expr))
  | convert (op : Conversion) (arg : Expr) (target : Option Conversion)
    (onError onNull : Option Expr)
  /-- The number of documents of a foreign collection that a lookup would find. -/
  | lookupSize (source : String) (localField foreignField : Path)
  /-- Is the field there (or not there)? -/
  | present (field : FieldPath) (expected : Bool)
  | object (op : ObjectOp) (args : List Expr)
  | document (fields : List (String × Expr))

namespace Expr

/-- The constant, if the expression is one. -/
def literal? : Expr → Option Literal
  | .lit value => some value
  | _ => none

/-- The field, if the expression is one. -/
def field? : Expr → Option FieldPath
  | .field f => some f
  | _ => none

/-- Is the expression the constant null? -/
def isNull : Expr → Bool
  | .lit .null => true
  | _ => false

/-- The items, if the expression is a constant array. -/
def items? (e : Expr) : Option (List Literal) :=
  e.literal? >>= Literal.items?

/-- The 64-bit integer, if the expression is a constant one. -/
def int? (e : Expr) : Option Int :=
  e.literal? >>= Literal.toInt?

/-- Is the expression a constant number? -/
def isNumber (e : Expr) : Bool :=
  e.literal?.any Literal.isNumeric

/-- Does the expression decide something, rather than compute a value? -/
def isCondition : Expr → Bool
  | .compare .. | .logic .. | .present .. => true
  | .text op _ => op = .regexMatch
  | .array op .. => op.isCondition
  | .convert op .. => op = .isNumber
  | _ => false

/-- Is the value written as JSON text? A choice is if its first alternative is. -/
def returnsJson : Expr → Bool
  | .lit (.array _) | .document _ | .compoundId _ => true
  | .array op .. => op.returnsJson
  | .text op _ => op = .split || op = .regexFind
  | .object op _ => op = .merge || op = .ofArray
  | .accumulate op _ => op = .push || op = .addToSet
  | .cond _ yes _ => yes.returnsJson
  | .ifNull (first :: _) => first.returnsJson
  | _ => false

end Expr

end PipelineSql
