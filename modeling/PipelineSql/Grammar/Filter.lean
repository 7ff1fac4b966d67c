import PipelineSql.Grammar.Expression

/-!
# Grammar of filters

A filter lists conditions on fields, each a constant to equal or an object of query operators, and
may combine filters by connectives. All conditions of a list must hold.
-/

namespace PipelineSql.Grammar

/-- All of the conditions. -/
def allOf : List Expr → Result Expr
  | [] => return .lit (.bool true)
  | [e] => return e
  | es => Expr.ofLogic .and es

/-- A regular expression that a field must match. -/
def regex (path : String) (pattern : Phrase) (options : Option Phrase) : Result Expr := do
  let field ← Expr.ofField path
  let pattern ← pattern.string "$regex"
  let args := [field, .lit (.string pattern)]
  match options with
  | none => Expr.ofText .regexMatch args
  | some p => Expr.ofText .regexMatch (args ++ [.lit (.string (← p.string "$options"))])

/-- The condition of one query operator; `$options` only goes with `$regex`. -/
def queryOperator (path : String) (ops : Phrases) (name : String) (value : Phrase) :
    Result (Option Expr) :=
  match name with
  | "$options" => pure none
  | "$regex" => return some (← regex path value (ops.lookup "$options"))
  | "$exists" =>
    match value.flag? with
    | some expected => return some (.present (← FieldPath.ofString path) expected)
    | none => fault .existsFlag
  | "$not" => do
    let _ ← value.document "$not"
    return some (← Expr.ofLogic .not [← value.operators path])
  | "$size" => do
    let size ← Expr.ofArray .size [← Expr.ofField path]
    let n ← value.integer "$size"
    return some (← Expr.ofCompare .eq size (.lit (.int n)))
  | _ => do
    let op ← known Comparison.ofName? name
    let field ← Expr.ofField path
    let constant ← value.literal name
    return some (← Expr.ofCompare op field (.lit constant))

/-- The condition of an object of query operators. -/
def queryOperators (ops : Phrases) (path : String) : Result Expr := do
  match ops.find? fun (key, _) => !isReference key with
  | some (key, _) => fault (.mixedFilter path key)
  | none => pure ()
  if ops.has "$options" && !ops.has "$regex" then fault .optionsWithoutRegex
  let conditions ← ops.mapM fun (name, value) => queryOperator path ops name value
  allOf (conditions.filterMap id)

/-- The condition on one field. -/
def fieldCondition (path : String) (value : Phrase) : Result Expr :=
  match value.json with
  | .obj _ =>
    if value.entries.any fun (key, _) => isReference key then value.operators path
    else unsupported (.embeddedDocument path)
  | _ => do
    let field ← Expr.ofField path
    let constant ← value.literal path
    Expr.ofCompare .eq field (.lit constant)

/-- The condition of one entry of a filter; `$comment` has none. -/
def filterEntry (key : String) (value : Phrase) : Result (Option Expr) :=
  match key with
  | "$and" | "$or" | "$nor" => do
    let op ← known Connective.ofName? key
    let operands ← (← value.array key).mapM (·.filter)
    return some (← Expr.ofLogic op operands)
  | "$expr" => return some (← value.expr)
  | "$comment" => pure none
  | _ =>
    if isReference key then .error (.unknownOperator key)
    else return some (← fieldCondition key value)

/-- A filter. -/
def filter (doc : Phrases) : Result Expr := do
  let conditions ← doc.mapM fun (key, value) => filterEntry key value
  allOf (conditions.filterMap id)

end PipelineSql.Grammar
