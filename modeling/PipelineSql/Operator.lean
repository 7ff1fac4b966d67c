import PipelineSql.Error

/-!
# Operators

The operator families of the expression language. Each operator has one name, and names are matched
exactly.
-/

namespace PipelineSql

/-- The operator of a family that has the given name. -/
def named? {α : Type} (all : List α) (name : α → String) (s : String) : Option α :=
  all.find? fun op => name op == s

/-- Comparisons and membership tests. -/
inductive Comparison where
  | eq
  | ne
  | gt
  | gte
  | lt
  | lte
  | isIn
  | notIn
deriving DecidableEq, Repr

namespace Comparison

/-- Every comparison. -/
def all : List Comparison := [eq, ne, gt, gte, lt, lte, isIn, notIn]

/-- The name in a pipeline. -/
def name : Comparison → String
  | eq => "$eq"
  | ne => "$ne"
  | gt => "$gt"
  | gte => "$gte"
  | lt => "$lt"
  | lte => "$lte"
  | isIn => "$in"
  | notIn => "$nin"

/-- The operator in SQL. -/
def sql : Comparison → String
  | eq => "="
  | ne => "<>"
  | gt => ">"
  | gte => ">="
  | lt => "<"
  | lte => "<="
  | isIn => "IN"
  | notIn => "NOT IN"

/-- Does the operator test membership of a list? -/
def isMembership : Comparison → Bool
  | isIn | notIn => true
  | _ => false

/-- The comparison with a name. -/
def ofName? : String → Option Comparison := named? all name

end Comparison

/-- Logical connectives. -/
inductive Connective where
  | and
  | or
  | not
  | nor
deriving DecidableEq, Repr

namespace Connective

/-- Every connective. -/
def all : List Connective := [.and, .or, .not, .nor]

/-- The name in a pipeline. -/
def name : Connective → String
  | .and => "$and"
  | .or => "$or"
  | .not => "$not"
  | .nor => "$nor"

/-- The connective with a name. -/
def ofName? : String → Option Connective := named? all name

/-- How many operands it takes. -/
def arity : Connective → Arity
  | .not => .exactly 1
  | _ => .atLeast 1

end Connective

/-- Arithmetic. -/
inductive Arithmetic where
  | add
  | subtract
  | multiply
  | divide
  | mod
  | round
  | abs
  | ceil
  | floor
  | trunc
  | sqrt
  | pow
  | exp
  | ln
  | log10
  | max
  | min
deriving DecidableEq, Repr

namespace Arithmetic

/-- Every arithmetic operator. -/
def all : List Arithmetic :=
  [add, subtract, multiply, divide, mod, round, abs, ceil, floor, trunc, sqrt, pow, exp, ln, log10,
    max, min]

/-- The name in a pipeline. -/
def name : Arithmetic → String
  | add => "$add"
  | subtract => "$subtract"
  | multiply => "$multiply"
  | divide => "$divide"
  | mod => "$mod"
  | round => "$round"
  | abs => "$abs"
  | ceil => "$ceil"
  | floor => "$floor"
  | trunc => "$trunc"
  | sqrt => "$sqrt"
  | pow => "$pow"
  | exp => "$exp"
  | ln => "$ln"
  | log10 => "$log10"
  | max => "$max"
  | min => "$min"

/-- The sign between operands, for the four basic operations. -/
def sign? : Arithmetic → Option String
  | add => some "+"
  | subtract => some "-"
  | multiply => some "*"
  | divide => some "/"
  | _ => none

/-- The function in SQL; a basic operation has its sign. -/
def function : Arithmetic → String
  | add => "+"
  | subtract => "-"
  | multiply => "*"
  | divide => "/"
  | mod => "MOD"
  | round => "ROUND"
  | abs => "ABS"
  | ceil => "CEIL"
  | floor => "FLOOR"
  | trunc => "TRUNC"
  | sqrt => "SQRT"
  | pow => "POWER"
  | exp => "EXP"
  | ln => "LN"
  | log10 => "LOG"
  | max => "GREATEST"
  | min => "LEAST"

/-- Does the operator accept one operand or two? -/
def isUnaryCapable : Arithmetic → Bool
  | abs | ceil | floor | sqrt | exp | ln | log10 | trunc | round => true
  | _ => false

/-- Does the SQL function take a second argument? -/
def acceptsSecond : Arithmetic → Bool
  | round | trunc | mod | pow => true
  | _ => false

/-- Is it `$max` or `$min`? -/
def isExtreme : Arithmetic → Bool
  | max | min => true
  | _ => false

/-- How many operands it takes. -/
def arity (op : Arithmetic) : Arity :=
  if op.isUnaryCapable then .between 1 2
  else
    match op with
    | subtract | divide | mod | pow => .exactly 2
    | _ => .atLeast 1

/-- The arithmetic operator with a name. -/
def ofName? : String → Option Arithmetic := named? all name

end Arithmetic

/-- Operators on text. -/
inductive TextOp where
  | concat
  | toLower
  | toUpper
  | substr
  | trim
  | ltrim
  | rtrim
  | length
  | split
  | indexOf
  | regexMatch
  | regexFind
  | replaceOne
  | replaceAll
deriving DecidableEq, Repr

namespace TextOp

/-- Every text operator. -/
def all : List TextOp :=
  [concat, toLower, toUpper, substr, trim, ltrim, rtrim, length, split, indexOf, regexMatch,
    regexFind, replaceOne, replaceAll]

/-- The name in a pipeline. -/
def name : TextOp → String
  | concat => "$concat"
  | toLower => "$toLower"
  | toUpper => "$toUpper"
  | substr => "$substr"
  | trim => "$trim"
  | ltrim => "$ltrim"
  | rtrim => "$rtrim"
  | length => "$strLenCP"
  | split => "$split"
  | indexOf => "$indexOfCP"
  | regexMatch => "$regexMatch"
  | regexFind => "$regexFind"
  | replaceOne => "$replaceOne"
  | replaceAll => "$replaceAll"

/-- The text operator with a name; `$substr` has two more names. -/
def ofName? (s : String) : Option TextOp :=
  if s = "$substrCP" ∨ s = "$substrBytes" then some substr else named? all name s

/-- How many arguments it takes. -/
def arity : TextOp → Arity
  | concat => .atLeast 1
  | toLower | toUpper | length => .exactly 1
  | trim | ltrim | rtrim => .between 1 2
  | substr => .between 2 3
  | split => .exactly 2
  | indexOf => .between 2 4
  | regexMatch | regexFind => .between 2 3
  | replaceOne | replaceAll => .exactly 3

/-- The keys of an operator whose arguments are named, in the order of its arguments. -/
def keys? : TextOp → Option (List String)
  | trim | ltrim | rtrim => some ["input", "chars"]
  | regexMatch | regexFind => some ["input", "regex", "options"]
  | replaceOne | replaceAll => some ["input", "find", "replacement"]
  | _ => none

end TextOp

/-- Parts of a date. -/
inductive DatePart where
  | year
  | month
  | dayOfMonth
  | hour
  | minute
  | second
  | millisecond
  | dayOfWeek
  | dayOfYear
deriving DecidableEq, Repr

namespace DatePart

/-- Every part. -/
def all : List DatePart :=
  [year, month, dayOfMonth, hour, minute, second, millisecond, dayOfWeek, dayOfYear]

/-- The name in a pipeline. -/
def name : DatePart → String
  | year => "$year"
  | month => "$month"
  | dayOfMonth => "$dayOfMonth"
  | hour => "$hour"
  | minute => "$minute"
  | second => "$second"
  | millisecond => "$millisecond"
  | dayOfWeek => "$dayOfWeek"
  | dayOfYear => "$dayOfYear"

/-- The part of `EXTRACT`, for the parts it knows. -/
def extract? : DatePart → Option String
  | year => some "YEAR"
  | month => some "MONTH"
  | dayOfMonth => some "DAY"
  | hour => some "HOUR"
  | minute => some "MINUTE"
  | _ => none

/-- The part with a name. -/
def ofName? : String → Option DatePart := named? all name

end DatePart

/-- Operators on arrays. -/
inductive ArrayOp where
  | elemAt
  | size
  | first
  | last
  | filter
  | map
  | reduce
  | concat
  | slice
  | reverse
  | sort
  | contains
  | isArray
  | indexOf
  | setUnion
  | setIntersection
  | setDifference
  | setEquals
  | setIsSubset
  | anyTrue
  | allTrue
deriving DecidableEq, Repr

namespace ArrayOp

/-- Every array operator. -/
def all : List ArrayOp :=
  [elemAt, size, first, last, filter, map, reduce, concat, slice, reverse, sort, contains, isArray,
    indexOf, setUnion, setIntersection, setDifference, setEquals, setIsSubset, anyTrue, allTrue]

/-- The name in a pipeline. -/
def name : ArrayOp → String
  | elemAt => "$arrayElemAt"
  | size => "$size"
  | first => "$first"
  | last => "$last"
  | filter => "$filter"
  | map => "$map"
  | reduce => "$reduce"
  | concat => "$concatArrays"
  | slice => "$slice"
  | reverse => "$reverseArray"
  | sort => "$sortArray"
  | contains => "$in"
  | isArray => "$isArray"
  | indexOf => "$indexOfArray"
  | setUnion => "$setUnion"
  | setIntersection => "$setIntersection"
  | setDifference => "$setDifference"
  | setEquals => "$setEquals"
  | setIsSubset => "$setIsSubset"
  | anyTrue => "$anyElementTrue"
  | allTrue => "$allElementsTrue"

/-- The array operator with a name. -/
def ofName? : String → Option ArrayOp := named? all name

/-- How many arguments it takes besides its input array and its index. -/
def arity : ArrayOp → Arity
  | slice => .between 0 1
  | contains | filter | map | sort => .exactly 1
  | indexOf => .between 1 3
  | setDifference | setIsSubset | reduce => .exactly 2
  | setEquals => .atLeast 2
  | concat | setUnion | setIntersection => .atLeast 1
  | _ => .exactly 0

/-- Does the operator decide something about its arrays? -/
def isCondition : ArrayOp → Bool
  | contains | isArray | setEquals | setIsSubset | anyTrue | allTrue => true
  | _ => false

/-- Is the result a JSON array? -/
def returnsJson : ArrayOp → Bool
  | filter | map | concat | slice | reverse | sort | setUnion | setIntersection
  | setDifference => true
  | _ => false

end ArrayOp

/-- Accumulators of a group. -/
inductive Accumulator where
  | sum
  | avg
  | count
  | min
  | max
  | first
  | last
  | push
  | addToSet
  | stdDevPop
  | stdDevSamp
deriving DecidableEq, Repr

namespace Accumulator

/-- Every accumulator. -/
def all : List Accumulator :=
  [sum, avg, count, min, max, first, last, push, addToSet, stdDevPop, stdDevSamp]

/-- The name in a pipeline. -/
def name : Accumulator → String
  | sum => "$sum"
  | avg => "$avg"
  | count => "$count"
  | min => "$min"
  | max => "$max"
  | first => "$first"
  | last => "$last"
  | push => "$push"
  | addToSet => "$addToSet"
  | stdDevPop => "$stdDevPop"
  | stdDevSamp => "$stdDevSamp"

/-- Must the input be numeric? -/
def isNumeric : Accumulator → Bool
  | sum | avg | stdDevPop | stdDevSamp => true
  | _ => false

/-- The accumulator with a name. -/
def ofName? : String → Option Accumulator := named? all name

end Accumulator

/-- Conversions and inspections of types. -/
inductive Conversion where
  | type
  | toInt
  | toLong
  | toDouble
  | toDecimal
  | toString
  | toBool
  | toDate
  | toObjectId
  | convert
  | isNumber
deriving DecidableEq, Repr

namespace Conversion

/-- Every conversion. -/
def all : List Conversion :=
  [.type, .toInt, .toLong, .toDouble, .toDecimal, .toString, .toBool, .toDate, .toObjectId,
    .convert, .isNumber]

/-- The name in a pipeline. -/
def name : Conversion → String
  | .type => "$type"
  | .toInt => "$toInt"
  | .toLong => "$toLong"
  | .toDouble => "$toDouble"
  | .toDecimal => "$toDecimal"
  | .toString => "$toString"
  | .toBool => "$toBool"
  | .toDate => "$toDate"
  | .toObjectId => "$toObjectId"
  | .convert => "$convert"
  | .isNumber => "$isNumber"

/-- The conversion with a name. -/
def ofName? : String → Option Conversion := named? all name

/-- The conversions that `$convert` can be asked for, by the name of their target. -/
def targets : List (String × Conversion) :=
  [("int", .toInt), ("long", .toLong), ("double", .toDouble), ("decimal", .toDecimal),
    ("string", .toString), ("bool", .toBool), ("date", .toDate), ("objectId", .toObjectId)]

/-- The conversion to a target. -/
def ofTarget (s : String) : Result Conversion :=
  match targets.lookup s with
  | some op => pure op
  | none => fault (.convertTarget s)

end Conversion

/-- Operators on documents. -/
inductive ObjectOp where
  | merge
  | toArray
  | ofArray
deriving DecidableEq, Repr

namespace ObjectOp

/-- Every document operator. -/
def all : List ObjectOp := [merge, toArray, ofArray]

/-- The name in a pipeline. -/
def name : ObjectOp → String
  | merge => "$mergeObjects"
  | toArray => "$objectToArray"
  | ofArray => "$arrayToObject"

/-- The document operator with a name. -/
def ofName? : String → Option ObjectOp := named? all name

/-- How many arguments it takes. -/
def arity : ObjectOp → Arity
  | merge => .atLeast 1
  | _ => .exactly 1

end ObjectOp

/-- Functions over a window of rows. -/
inductive WindowOp where
  | sum
  | avg
  | min
  | max
  | count
  | rank
  | denseRank
  | documentNumber
  | first
  | last
  | shift
  | stdDevPop
  | stdDevSamp
  | push
deriving DecidableEq, Repr

namespace WindowOp

/-- Every window function. -/
def all : List WindowOp :=
  [sum, avg, min, max, count, rank, denseRank, documentNumber, first, last, shift, stdDevPop,
    stdDevSamp, push]

/-- The name in a pipeline. -/
def name : WindowOp → String
  | sum => "$sum"
  | avg => "$avg"
  | min => "$min"
  | max => "$max"
  | count => "$count"
  | rank => "$rank"
  | denseRank => "$denseRank"
  | documentNumber => "$documentNumber"
  | first => "$first"
  | last => "$last"
  | shift => "$shift"
  | stdDevPop => "$stdDevPop"
  | stdDevSamp => "$stdDevSamp"
  | push => "$push"

/-- A ranking takes no argument and no frame. -/
def isRanking : WindowOp → Bool
  | rank | denseRank | documentNumber => true
  | _ => false

/-- The window function with a name. -/
def ofName? : String → Option WindowOp := named? all name

end WindowOp

/-- Refuse a name that no operator of the family has. -/
def known {α : Type} (ofName? : String → Option α) (s : String) : Result α :=
  match ofName? s with
  | some op => pure op
  | none => .error (.unknownOperator s)

end PipelineSql
