import PipelineSql.Error
import PipelineSql.Json.Printer

/-!
# Literals

The constants of a pipeline: null, booleans, 64-bit integers, binary64 numbers, strings and arrays
of literals. A document is not a literal.
-/

namespace PipelineSql

/-- A constant of a pipeline. -/
inductive Literal where
  | null
  | bool (b : Bool)
  | int (n : Int)
  | double (x : Float)
  | string (s : String)
  | array (items : List Literal)

/-- The SQL type as which a JSON scalar is extracted. -/
inductive JsonType where
  | varchar
  | number
  | date
  | timestamp
  | boolean
  | json
deriving DecidableEq, Repr

namespace JsonType

/-- Every type. -/
def all : List JsonType := [.varchar, .number, .date, .timestamp, .boolean, .json]

/-- The name of a type. -/
def name : JsonType → String
  | .varchar => "varchar"
  | .number => "number"
  | .date => "date"
  | .timestamp => "timestamp"
  | .boolean => "boolean"
  | .json => "json"

/-- The type with a name. -/
def ofName? (s : String) : Option JsonType :=
  all.find? fun t => t.name == s

end JsonType

/-- The signed 64-bit integer nearest to `n`. -/
def clampInt64 (n : Int) : Int :=
  max (-(int64Bound : Int)) (min n ((int64Bound : Int) - 1))

namespace Literal

/-- The literal of a number: an integer token that fits in 64 bits is an integer. -/
def ofNumber (n : Number) : Literal :=
  match n.toInt64? with
  | some i => .int i
  | none => .double n.toFloat

mutual

/-- The literal that a JSON value spells; documents have none. -/
def ofJson? : Json → Option Literal
  | .null => some .null
  | .bool b => some (.bool b)
  | .num n => some (ofNumber n)
  | .str s => some (.string s)
  | .arr items => (ofItems? items).map .array
  | .obj _ => none

/-- The literals of the items of an array, if all have one. -/
def ofItems? : List Json → Option (List Literal)
  | [] => some []
  | j :: js => do
    let l ← ofJson? j
    let ls ← ofItems? js
    some (l :: ls)

end

mutual

/-- The JSON value of a literal; a double that is not finite becomes null. -/
def toJson : Literal → Json
  | .null => .null
  | .bool b => .bool b
  | .int n => .num (.int n)
  | .double x => if (Binary.ofFloat? x).isSome then .num (.float x) else .null
  | .string s => .str s
  | .array items => .arr (itemsToJson items)

/-- The JSON values of the items of an array. -/
def itemsToJson : List Literal → List Json
  | [] => []
  | l :: ls => toJson l :: itemsToJson ls

end

/-- The compact JSON text, such as `["a",1]`. -/
def text (l : Literal) : String :=
  l.toJson.print

mutual

/-- Equality of constants. Doubles compare as numbers, so NaN differs from itself. -/
def beq : Literal → Literal → Bool
  | .null, .null => true
  | .bool a, .bool b => a == b
  | .int a, .int b => a == b
  | .double a, .double b => a == b
  | .string a, .string b => a == b
  | .array as, .array bs => beqItems as bs
  | _, _ => false

/-- Equality item by item. -/
def beqItems : List Literal → List Literal → Bool
  | [], [] => true
  | a :: as, b :: bs => beq a b && beqItems as bs
  | _, _ => false

end

instance : BEq Literal := ⟨beq⟩

/-- Is the literal null? -/
def isNull : Literal → Bool
  | .null => true
  | _ => false

/-- Is the literal a number? -/
def isNumeric : Literal → Bool
  | .int _ | .double _ => true
  | _ => false

/-- The literal as a 64-bit integer: a double without fraction counts, saturating at the range. -/
def toInt? : Literal → Option Int
  | .int n => some n
  | .double x => do
    let n ← (← Binary.ofFloat? x).toInt?
    some (clampInt64 n)
  | _ => none

/-- The literal as a binary64 number. -/
def toFloat? : Literal → Option Float
  | .int n => some (Float.ofInt n)
  | .double x => some x
  | _ => none

/-- The text of a string. -/
def string? : Literal → Option String
  | .string s => some s
  | _ => none

/-- The items of an array. -/
def items? : Literal → Option (List Literal)
  | .array items => some items
  | _ => none

/-- Null, false and zero are false, all else is true. -/
def isTruthy : Literal → Bool
  | .null => false
  | .bool b => b
  | .int n => n != 0
  | .double x => x != 0.0
  | .string _ | .array _ => true

end Literal

end PipelineSql
