import PipelineSql.Text.Decimal

/-!
# JSON values

Objects keep their entries in order, each key once. Numbers remember whether their token was an
integer, because `5` and `5.0` are different literals of a pipeline.
-/

namespace PipelineSql

/-- The number of values of a 64-bit word. -/
def wordCount : Nat := Nat.pow 2 64

/-- The bound on the magnitude of a signed 64-bit word, `2 ^ 63`. -/
def int64Bound : Nat := Nat.pow 2 63

/-- Is the number in the range of a signed 64-bit word? -/
def isInt64 (n : Int) : Bool :=
  -(int64Bound : Int) ≤ n && n < int64Bound

/-- A JSON number, by the kind of its token. -/
inductive Number where
  | int (n : Int)
  | float (x : Float)
deriving Repr

/-- A JSON value. -/
inductive Json where
  | null
  | bool (b : Bool)
  | num (n : Number)
  | str (s : String)
  | arr (items : List Json)
  | obj (entries : List (String × Json))

namespace Number

/-- The number as a signed 64-bit integer, if its token is one. -/
def toInt64? : Number → Option Int
  | .int n => if isInt64 n then some n else none
  | .float _ => none

/-- The nearest binary64 number. -/
def toFloat : Number → Float
  | .int n => Float.ofInt n
  | .float x => x

/-- An integral number strictly inside the 64-bit range; `5.0` counts as `5`. -/
def toIntegral? (n : Number) : Option Int :=
  match n.toInt64? with
  | some i => some i
  | none => do
    let i ← (← Binary.ofFloat? n.toFloat).toInt?
    if i.natAbs < int64Bound then some i else none

/-- Is the number other than zero? -/
def isNonzero (n : Number) : Bool :=
  n.toFloat != 0.0

end Number

namespace Json

/-- The entries of an object. -/
def entries? : Json → Option (List (String × Json))
  | .obj es => some es
  | _ => none

/-- The items of an array. -/
def items? : Json → Option (List Json)
  | .arr xs => some xs
  | _ => none

/-- The text of a string. -/
def str? : Json → Option String
  | .str s => some s
  | _ => none

/-- The value at a key of an object. -/
def get? (j : Json) (key : String) : Option Json :=
  j.entries? >>= (·.lookup key)

/-- Entries with one more: a repeated key keeps its place and takes the new value. -/
def insert (key : String) (value : Json) : List (String × Json) → List (String × Json)
  | [] => [(key, value)]
  | (k, v) :: rest => if k = key then (k, value) :: rest else (k, v) :: insert key value rest

end Json

end PipelineSql
