import PipelineSql.Grammar.Phrase

/-!
# Grammar of expressions

A text that starts with `$$` is a variable and one that starts with `$` a field. A document whose
first key starts with `$` applies that operator, any other document computes its fields, and all
else is a constant.
-/

namespace PipelineSql.Grammar

mutual

/-- Would the value have to be computed? -/
def isComputed : Json → Bool
  | .str s => isReference s
  | .arr items => anyComputed items
  | .obj _ => true
  | _ => false

/-- Would any of the values have to be computed? -/
def anyComputed : List Json → Bool
  | [] => false
  | j :: js => isComputed j || anyComputed js

end

/-- The positional arguments: an array lists them, anything else is the only one. -/
def operands (arg : Phrase) : Result (List Expr) :=
  match arg.json with
  | .arr _ => arg.items.mapM (·.expr)
  | _ => return [← arg.expr]

/-- The only argument of an operator. -/
def operand (name : String) (arg : Phrase) : Result Expr := do
  match ← operands arg with
  | [e] => return e
  | args => fault (.arity name (.exactly 1) args.length)

/-- `$cond`, with its parts named or in order. -/
def cond (arg : Phrase) : Result Expr :=
  match arg.json with
  | .obj _ => do
    let doc : Phrases := arg.entries
    doc.only ["if", "then", "else"] "$cond"
    let test ← (← doc.required "if" "$cond").expr
    let yes ← (← doc.required "then" "$cond").expr
    let no ← (← doc.required "else" "$cond").expr
    return .cond test yes no
  | _ => do
    match ← operands arg with
    | [test, yes, no] => return .cond test yes no
    | args => fault (.arity "$cond" (.exactly 3) args.length)

/-- A branch of `$switch`. -/
def branch (p : Phrase) : Result (Expr × Expr) := do
  let doc ← p.document "$switch branch"
  doc.only ["case", "then"] "$switch branch"
  let test ← (← doc.required "case" "$switch branch").expr
  let value ← (← doc.required "then" "$switch branch").expr
  return (test, value)

/-- `$switch`. -/
def switch (arg : Phrase) : Result Expr := do
  let doc ← arg.document "$switch"
  doc.only ["branches", "default"] "$switch"
  let branches ← (← (← doc.required "branches" "$switch").array "$switch branches").mapM branch
  let default ← doc.optional "default" (·.expr)
  Expr.ofSwitch branches default

/-- `$convert`. -/
def convert (arg : Phrase) : Result Expr := do
  let doc ← arg.document "$convert"
  doc.only ["input", "to", "onError", "onNull"] "$convert"
  let target ← (← doc.required "to" "$convert").string "$convert 'to'"
  let input ← (← doc.required "input" "$convert").expr
  let onError ← doc.optional "onError" (·.expr)
  let onNull ← doc.optional "onNull" (·.expr)
  Expr.ofConvert input target onError onNull

/-- Named arguments in the given order; only trailing ones may be left out. -/
def namedArguments (doc : Phrases) (what : String) : List String → Result (List Expr)
  | [] => pure []
  | key :: rest =>
    match doc.lookup key with
    | some p => do
      let e ← p.expr
      return e :: (← namedArguments doc what rest)
    | none => if rest.any doc.has then fault (.missingKey what key) else pure []

/-- An operation on text, with its arguments named or in order. -/
def text (op : TextOp) (arg : Phrase) : Result Expr :=
  match op.keys? with
  | none => do Expr.ofText op (← operands arg)
  | some keys => do
    let doc ← arg.document op.name
    doc.only keys op.name
    Expr.ofText op (← namedArguments doc op.name keys)

/-- A part of a date, which may be named `date`. -/
def date (part : DatePart) (arg : Phrase) : Result Expr := do
  let doc : Phrases := arg.entries
  match doc.lookup "date" with
  | some input =>
    if doc.has "timezone" then unsupported (.timezone part.name)
    doc.only ["date"] part.name
    return .date part (← input.expr)
  | none => return .date part (← operand part.name arg)

/-- The name of the element variable, if one is given. -/
def elementName (doc : Phrases) (what : String) : Result (Option String) :=
  doc.optional "as" (·.string s!"{what} 'as'")

/-- An operator on arrays, with its arguments named or in order. -/
def array (op : ArrayOp) (arg : Phrase) : Result Expr :=
  match op with
  | .filter => do
    let doc ← arg.document op.name
    doc.only ["input", "as", "cond", "limit"] op.name
    let input ← (← doc.required "input" op.name).expr
    let var ← elementName doc op.name
    let test ← (← doc.required "cond" op.name).expr
    let limit ← doc.optional "limit" (·.expr)
    Expr.ofFilter input var test limit
  | .map => do
    let doc ← arg.document op.name
    doc.only ["input", "as", "in"] op.name
    let input ← (← doc.required "input" op.name).expr
    let var ← elementName doc op.name
    let body ← (← doc.required "in" op.name).expr
    Expr.ofMap input var body
  | .reduce => do
    let doc ← arg.document op.name
    doc.only ["input", "initialValue", "in"] op.name
    let input ← (← doc.required "input" op.name).expr
    let initial ← (← doc.required "initialValue" op.name).expr
    let body ← (← doc.required "in" op.name).expr
    return Expr.ofReduce input initial body
  | .sort => do
    let doc ← arg.document op.name
    doc.only ["input", "sortBy"] op.name
    let input ← (← doc.required "input" op.name).expr
    let sortBy ← (← doc.required "sortBy" op.name).expr
    return Expr.ofSortArray input sortBy
  | _ => do Expr.ofArray op (← operands arg)

/-- A comparison of two arguments. -/
def comparison (op : Comparison) (arg : Phrase) : Result Expr := do
  match ← operands arg with
  | [left, right] => Expr.ofCompare op left right
  | args => fault (.arity op.name (.exactly 2) args.length)

/-- The families of operators in the order in which a name is looked up. -/
def families (name : String) (arg : Phrase) : List (Option (Result Expr)) :=
  [ (Comparison.ofName? name).map (comparison · arg),
    (Connective.ofName? name).map fun op => do Expr.ofLogic op (← operands arg),
    (Arithmetic.ofName? name).map fun op => do Expr.ofArith op (← operands arg),
    (TextOp.ofName? name).map (text · arg),
    (DatePart.ofName? name).map (date · arg),
    (ArrayOp.ofName? name).map (array · arg),
    (Conversion.ofName? name).map fun op => do Expr.ofConversion op (← operand name arg),
    (ObjectOp.ofName? name).map fun op => do Expr.ofObject op (← operands arg) ]

/-- An operator applied to its arguments. `$in` looks into an array here; the test against a list
belongs to filters. -/
def operator (name : String) (arg : Phrase) : Result Expr :=
  match name with
  | "$literal" => return .lit (← arg.literal "$literal")
  | "$cond" => cond arg
  | "$ifNull" => do Expr.ofIfNull (← operands arg)
  | "$switch" => switch arg
  | "$convert" => convert arg
  | "$in" => do Expr.ofArray .contains (← operands arg)
  | _ => ((families name arg).findSome? id).getD (.error (.unknownOperator name))

/-- A document of computed fields. -/
def document (doc : Phrases) : Result Expr := do
  let fields ← doc.mapM fun (name, p) => do
    if isReference name then fault (.mixedOperator name)
    checkFieldName name
    return (name, ← p.expr)
  return .document fields

/-- The expression of a string. -/
def reference (s : String) : Result Expr :=
  if isVariable s then Expr.ofVariable s
  else if isReference s then Expr.ofField s
  else return .lit (.string s)

/-- The expression of an array, all of whose items must be constants. -/
def arrayLiteral (items : List Json) : Result Expr :=
  if anyComputed items then unsupported .computedArray
  else
    match Literal.ofItems? items with
    | some ls => return .lit (.array ls)
    | none => fault (.wrongKind "array" .literal)

/-- The expression of an object. -/
def object (doc : Phrases) : Result Expr :=
  match doc with
  | (key, _) :: _ =>
    if isReference key then do
      let (name, arg) ← doc.single "expression operator document"
      operator name arg
    else document doc
  | [] => document doc

/-- An accumulator, such as `$sum` of a value. -/
def accumulator (name : String) (p : Phrase) : Result Expr := do
  let what := s!"accumulator '{name}'"
  let doc ← p.document what
  let (opName, arg) ← doc.single what
  let op ← known Accumulator.ofName? opName
  if op = .count then
    if arg.isEmptyDocument then Expr.ofAccumulate op none else fault .countAccumulator
  else Expr.ofAccumulate op (some (← arg.expr))

end PipelineSql.Grammar
