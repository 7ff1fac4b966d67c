import PipelineSql.Expr.Shape

/-!
# Building expressions

The constructors of sound expressions: each refuses arguments that its operator does not take and
names that are not admissible.
-/

namespace PipelineSql.Expr

/-- The field that a text names. -/
def ofField (text : String) : Result Expr :=
  return .field (← FieldPath.ofString text)

/-- The variable of a reference `$$name` or `$$name.path`. -/
def ofVariable (reference : String) : Result Expr := do
  match "$$".toList.isPrefixOf? reference.toList with
  | none => fault (.notVariable reference)
  | some body =>
    match (Path.ofString (String.ofList body)).segments with
    | name :: segment :: rest =>
      let path : Path := ⟨segment :: rest⟩
      checkFieldName path.toString
      checkFieldName name
      return .var name (some path)
    | segments =>
      let name := segments.headD ""
      checkFieldName name
      return .var name none

/-- A comparison; the right side of a membership test is a nonempty constant array. -/
def ofCompare (op : Comparison) (left right : Expr) : Result Expr := do
  if op.isMembership then
    match right with
    | .lit (.array (_ :: _)) => pure ()
    | .lit (.array []) => fault (.emptyMembership op.name)
    | _ => fault (.computedMembership op.name)
  return .compare op left right

/-- A node whose shape is checked. -/
def checked (e : Expr) : Result Expr := do
  e.checkShape
  return e

/-- A logical connective. -/
def ofLogic (op : Connective) (operands : List Expr) : Result Expr :=
  checked (.logic op operands)

/-- An arithmetic operation. -/
def ofArith (op : Arithmetic) (operands : List Expr) : Result Expr :=
  checked (.arith op operands)

/-- An operation on text. -/
def ofText (op : TextOp) (args : List Expr) : Result Expr :=
  checked (.text op args)

/-- An operation on documents. -/
def ofObject (op : ObjectOp) (args : List Expr) : Result Expr :=
  checked (.object op args)

/-- The first of the arguments that is not null. -/
def ofIfNull (args : List Expr) : Result Expr :=
  checked (.ifNull args)

/-- A choice between branches. -/
def ofSwitch (branches : List (Expr × Expr)) (default : Option Expr) : Result Expr :=
  checked (.switch branches default)

/-- An accumulator; only `$count` goes without an argument. -/
def ofAccumulate (op : Accumulator) (arg : Option Expr) : Result Expr :=
  if arg.isNone && op != .count then fault (.noArgument op.name) else return .accumulate op arg

/-- A group key made of named parts. -/
def ofCompoundId (fields : List (String × Expr)) : Result Expr := do
  if fields.isEmpty then fault .emptyCompoundId
  fields.forM fun (name, _) => checkFieldName name
  return .compoundId fields

/-- A conversion other than `$convert`, which needs a target. -/
def ofConversion (op : Conversion) (arg : Expr) : Result Expr :=
  if op = .convert then fault .convertNeedsTarget else return .convert op arg none none none

/-- `$convert` to a named target. -/
def ofConvert (arg : Expr) (target : String) (onError onNull : Option Expr) : Result Expr :=
  return .convert .convert arg (some (← Conversion.ofTarget target)) onError onNull

/-- The size of a lookup. -/
def ofLookupSize (source localField foreignField : String) : Result Expr := do
  checkTableName source
  checkFieldName localField
  checkFieldName foreignField
  return .lookupSize source (Path.ofString localField) (Path.ofString foreignField)

/-- How many positional arguments an array operator takes, and how they are laid out: the input
array, the index and the others. -/
def arrayLayout (op : ArrayOp) (args : List Expr) :
    Arity × (Option Expr × Option Expr × List Expr) :=
  match op with
  | .elemAt => (.exactly 2, (args[0]?, args[1]?, []))
  | .slice => (.between 2 3, (args[0]?, args[1]?, args.drop 2))
  | .contains => (.exactly 2, (args[1]?, none, args.take 1))
  | .indexOf => (.between 2 4, (args[0]?, none, args.drop 1))
  | .setDifference | .setIsSubset => (.exactly 2, (none, none, args))
  | .setEquals => (.atLeast 2, (none, none, args))
  | .concat | .setUnion | .setIntersection => (.atLeast 1, (none, none, args))
  | _ => (.exactly 1, (args[0]?, none, []))

/-- An array operator with positional arguments. -/
def ofArray (op : ArrayOp) (args : List Expr) : Result Expr :=
  match op with
  | .filter | .map | .reduce | .sort => fault (.namedArguments op.name)
  | _ => do
    let (bounds, input, index, rest) := arrayLayout op args
    checkArity op.name bounds args.length
    return .array op input index rest none

/-- The name of an element variable, `this` unless given. -/
def elementVar (var : Option String) : Result String := do
  let name := var.getD "this"
  checkFieldName name
  return name

/-- `$filter`. -/
def ofFilter (input : Expr) (var : Option String) (test : Expr) (limit : Option Expr) :
    Result Expr :=
  return .array .filter (some input) limit [test] (some (← elementVar var))

/-- `$map`. -/
def ofMap (input : Expr) (var : Option String) (body : Expr) : Result Expr :=
  return .array .map (some input) none [body] (some (← elementVar var))

/-- `$reduce`. -/
def ofReduce (input initial body : Expr) : Expr :=
  .array .reduce (some input) none [initial, body] (some "this")

/-- `$sortArray`. -/
def ofSortArray (input sortBy : Expr) : Expr :=
  .array .sort (some input) none [sortBy] none

end PipelineSql.Expr
