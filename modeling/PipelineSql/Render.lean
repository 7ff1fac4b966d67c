import PipelineSql.Render.Arithmetic
import PipelineSql.Render.Convert
import PipelineSql.Render.Text
import PipelineSql.Render.Window

/-!
# Rendering expressions

The fold that gives every expression its reading from the readings of its parts.
-/

namespace PipelineSql

namespace Reading

/-- The reading of a field. -/
def ofField (f : FieldPath) : Reading :=
  { ofValue (.field f) fun type => return (← read).fieldValue f.path (f.type.or type) with
    json := return (← read).fieldJson f.path
    source := return (← read).fieldSource f.path }

/-- The reading of a variable. -/
def ofVariable (name : String) (path : Option Path) : Reading :=
  { ofValue (.var name path) (variableValue name path) with
    json := variableJson name path
    source := variableSource name path }

/-- The reading of a constant. Arrays are always written in place. -/
def ofLiteral (l : Literal) : Reading :=
  let value : Render Fragment := match l with
    | .array _ => return (Token.literal l : Fragment)
    | _ => Render.literal l
  { ofValue (.lit l) fun _ => value with
    condition := return .constant l.isTruthy }

/-- The reading of an operation on text. -/
def ofText (e : Expr) (op : TextOp) (args : List Reading) : Reading :=
  match op, args with
  | .regexMatch, text :: pattern :: rest =>
    ofCondition e (Render.regexTest text pattern rest.head?)
  | .regexMatch, _ => ofCondition e (fault (.malformed op.name) : Result Condition)
  | _, _ => ofValue e (fun _ => Render.text op args) args

/-- The reading of an operator on arrays. -/
def ofArray (e : Expr) (op : ArrayOp) (input index : Option Reading) (args : List Reading)
    (var : Option String) : Reading :=
  if op.isCondition then ofCondition e (Render.arrayCondition op input args)
  else ofValue e (Render.arrayValue op input index args var)

/-- The reading of a conversion. -/
def ofConversion (e : Expr) (op : Conversion) (arg : Reading) (target : Option Conversion)
    (onError onNull : Option Reading) : Reading :=
  if op = .isNumber then ofCondition e (Render.numberTest arg)
  else ofValue e fun _ => Render.conversion op arg target onError onNull

/-- A choice between values. -/
def choose (branches : List (Reading × Reading)) (default : Option Reading)
    (type : Option JsonType) : Render Fragment := do
  let branches ← branches.mapM fun (test, value) => do
    let c ← test.condition
    return (c.fragment, ← value.value type)
  match default with
  | none => return Fragment.cases branches none
  | some r => return Fragment.cases branches (some (← r.value type))

/-- The first of the values that is not null. -/
def coalesce (args : List Reading) (type : Option JsonType) : Render Fragment := do
  return Fragment.call "COALESCE" (← args.mapM (·.value type))

mutual

/-- The reading of an expression. -/
def ofExpr : Expr → Reading
  | .field f => ofField f
  | .var name path => ofVariable name path
  | .lit l => ofLiteral l
  | e@(.compare op left right) => ofCondition e (Render.comparison op (ofExpr left) (ofExpr right))
  | e@(.logic op operands) => ofCondition e (Render.connective op (ofExprs operands))
  | e@(.arith op operands) =>
    let rs := ofExprs operands
    ofValue e (fun _ => Render.arithmetic op rs) rs
  | e@(.array op input index args var) =>
    ofArray e op (ofOption input) (ofOption index) (ofExprs args) var
  | e@(.text op args) => ofText e op (ofExprs args)
  | e@(.date part arg) =>
    let r := ofExpr arg
    ofValue e fun _ => Render.datePart part r
  | e@(.cond test yes no) =>
    let branch := (ofExpr test, ofExpr yes)
    let default := ofExpr no
    ofValue e (choose [branch] (some default))
  | e@(.ifNull args) => ofValue e (coalesce (ofExprs args))
  | e@(.switch branches default) => ofValue e (choose (ofPairs branches) (ofOption default))
  | e@(.accumulate op arg) =>
    let r := ofOption arg
    ofValue e fun _ => Render.overArray op r
  | e@(.compoundId fields) =>
    let rs := ofFields fields
    ofValue e fun _ => Render.document rs
  | e@(.convert op arg target onError onNull) =>
    ofConversion e op (ofExpr arg) target (ofOption onError) (ofOption onNull)
  | e@(.lookupSize source localField foreignField) =>
    ofValue e fun _ => do
      Render.lookupSize source ((← read).fieldValue localField none) foreignField
  | e@(.present f expected) => ofCondition e (Render.presence f.path expected)
  | e@(.object op args) =>
    let rs := ofExprs args
    ofValue e fun _ => Render.object op rs
  | e@(.document fields) =>
    let rs := ofFields fields
    ofValue e fun _ => Render.document rs

/-- The readings of expressions. -/
def ofExprs : List Expr → List Reading
  | [] => []
  | e :: es => ofExpr e :: ofExprs es

/-- The reading of an expression that may be absent. -/
def ofOption : Option Expr → Option Reading
  | none => none
  | some e => some (ofExpr e)

/-- The readings of branches. -/
def ofPairs : List (Expr × Expr) → List (Reading × Reading)
  | [] => []
  | (a, b) :: rest => (ofExpr a, ofExpr b) :: ofPairs rest

/-- The readings of named expressions. -/
def ofFields : List (String × Expr) → List (String × Reading)
  | [] => []
  | (name, e) :: rest => (name, ofExpr e) :: ofFields rest

end

end Reading

namespace Expr

/-- The expression as a scalar. -/
def value (e : Expr) : Render Fragment :=
  (Reading.ofExpr e).scalar

/-- The expression as a scalar of a type. -/
def typed (e : Expr) (type : JsonType) : Render Fragment :=
  (Reading.ofExpr e).value (some type)

/-- The expression as a condition. -/
def condition (e : Expr) : Render Condition :=
  (Reading.ofExpr e).condition

/-- The expression as JSON, with whether the text is JSON text. -/
def json (e : Expr) : Render (Fragment × Bool) :=
  (Reading.ofExpr e).json

/-- The expression as an array whose elements are wanted. -/
def source (e : Expr) : Render ArraySource :=
  (Reading.ofExpr e).source

/-- An accumulator over a group, and whether the result is JSON text. -/
def aggregate (op : Accumulator) (arg : Option Expr) : Render (Fragment × Bool) :=
  Render.aggregate op (Reading.ofOption arg)

end Expr

/-- A window function over a partition. -/
def WindowOutput.render (out : WindowOutput) (partition : Fragment) (ordered : Bool) :
    Render Fragment :=
  Render.windowFunction out (Reading.ofOption out.arg) partition ordered

end PipelineSql
