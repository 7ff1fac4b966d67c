import PipelineSql.Render.Place
import PipelineSql.Expr.Basic

/-!
# Readings

The ways to write an expression: as a scalar, as a condition, as JSON, and as an array whose
elements are wanted. A condition is written as a scalar by cases, and a scalar as a condition by its
truth: null, false and zero are false.
-/

namespace PipelineSql

/-- The ways to write an expression. -/
structure Reading where
  expr : Expr
  /-- As a scalar, extracted as a type. -/
  value : Option JsonType → Render Fragment
  condition : Render Condition
  /-- As JSON, with whether the text is JSON text. -/
  json : Render (Fragment × Bool)
  source : Render ArraySource
  /-- The readings of the operands of arithmetic and concatenation. -/
  operands : List Reading

/-- The strings that count as false. -/
def falseTexts : List Fragment :=
  [Fragment.string "0", Fragment.string "false"]

/-- A boolean by cases. -/
def choice (d : Dialect) (c : Condition) : Fragment :=
  Fragment.cases [(c, d.bool true)] (some (d.bool false))

/-- Is the value true? -/
def truth (v : Fragment) : Condition :=
  let isFalse : Condition := .among (Fragment.call "LOWER" [Fragment.call "TO_CHAR" [v]])
    falseTexts false
  .relation .eq
    (Fragment.cases [((Condition.isNull v).fragment, "0"), (isFalse.fragment, "0")] (some "1")) "1"

namespace Reading

/-- The number that an expression computes. -/
def number (r : Reading) : Render Fragment :=
  r.value (some .number)

/-- The scalar that an expression computes, as whatever it is. -/
def scalar (r : Reading) : Render Fragment :=
  r.value none

/-- The reading of an expression that computes a value. -/
def ofValue (e : Expr) (value : Option JsonType → Render Fragment)
    (operands : List Reading := []) : Reading :=
  let value type := Render.captured do e.checkShape; value type
  let json := do return (← value none, e.returnsJson)
  { expr := e
    value := value
    condition := do return truth (← value none)
    json := json
    source := do return .ofValue (← json).1
    operands := operands }

/-- The reading of an expression that decides something. -/
def ofCondition (e : Expr) (condition : Render Condition) : Reading :=
  let condition := do e.checkShape; condition
  { ofValue e fun _ => do return choice (← read).dialect (← condition) with
    condition := condition }

end Reading

end PipelineSql
