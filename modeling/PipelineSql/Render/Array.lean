import PipelineSql.Render.Comparison
import PipelineSql.Render.Document
import PipelineSql.Render.Subscript

/-!
# Arrays

Access by position is a step of a path. All that looks at several elements expands the array into
rows and collects them again in a subquery.
-/

namespace PipelineSql.Render

/-- The input array of an operator. -/
def inputOf (op : ArrayOp) (input : Option Reading) : Result Reading :=
  match input with
  | some r => pure r
  | none => fault (.noInput op.name)

/-- The element at an end of an array. -/
def endElement (array : Reading) (step : String) (type : Option JsonType) : Render Fragment := do
  let a ← array.source
  return jsonValue (← read).dialect a.doc (a.step step) type

/-- The element at a position. -/
def elementAt (array index : Reading) (type : Option JsonType) : Render Fragment := do
  let a ← array.source
  let d := (← read).dialect
  match index.expr.int? with
  | some i => return jsonValue d a.doc (a.step s!"[{(Subscript.ofIndex i).text}]") type
  | none =>
    let label ← newAlias "elem"
    let n ← index.number
    return overElements d a label (elementValue d label none type)
      (" WHERE " ++ Fragment.column label "rn" ++ " = " ++ n ++ " + 1")

/-- The number of elements. What an equality lookup found is counted without the join. -/
def arraySize (array : Reading) : Render Fragment := do
  let env ← read
  let key := array.expr.field? >>= fun f => env.scope.lookup? f.path >>= fun l => l.key
  match key with
  | some k => lookupSize k.source (env.fieldValue k.localField none) k.foreignField
  | none =>
    let a ← array.source
    return jsonValue env.dialect a.doc (a.step ".size()") (some .number)

/-- The elements in the order of their positions. -/
def inOrder (label : String) : Fragment :=
  arrayOf (Fragment.column label valueColumn) true (Fragment.column label "rn")

/-- The test of an element row for bounds that are computed. -/
def sliceBounds (label : String) (skip : Option Reading) (count : Reading) : Render Fragment := do
  let rn := Fragment.column label "rn"
  match skip with
  | none => return rn ++ " <= " ++ (← count.number)
  | some s =>
    let s ← s.number
    let c ← count.number
    return rn ++ " > " ++ s ++ " AND " ++ rn ++ " <= " ++ s ++ " + " ++ c

/-- A part of an array: `count` elements from its start, or from its end if negative, or after
`skip` others. -/
def slice (array : Reading) (skip : Option Reading) (count : Reading) : Render Fragment := do
  let constantSkip : Option (Option Int) := match skip with
    | none => some none
    | some s => s.expr.int?.map some
  let a ← array.source
  match constantSkip, count.expr.int? with
  | some s, some c =>
    match Subscript.ofSlice s c with
    | some (low, high) => return jsonQuery a.doc (a.step s!"[{low.text} to {high.text}]") true
    | none => return Fragment.call "JSON_ARRAY" []
  | _, _ =>
    warn .sliceBounds
    let label ← newAlias "elem"
    let bounds ← sliceBounds label skip count
    return overElements (← read).dialect a label (inOrder label) (" WHERE " ++ bounds)

/-- The elements of several arrays as rows, with the number of the array in `src`. -/
def taggedRows (column : String) : Nat → List Reading → Render (List Fragment)
  | _, [] => pure []
  | n, r :: rest => do
    let a ← r.source
    let label ← newAlias "elem"
    let rows := "SELECT " ++ Fragment.int n ++ " AS src, " ++ Fragment.column label "rn" ++ ", " ++
      Fragment.column label column ++ " FROM " ++ elementRows (← read).dialect a label
    return [.group (.rows [elementSource label]) rows] :: (← taggedRows column (n + 1) rest)

/-- The union of tagged rows under an alias. -/
def unionOf (rows : List Fragment) (label : String) : Fragment :=
  Fragment.derived (Fragment.paren (Fragment.joined " UNION ALL " rows)) ++ " " ++
    Fragment.ident label

/-- The columns of tagged rows. -/
def taggedSource (label column : String) : RowSource :=
  ⟨label, .columns ["src", "rn", column]⟩

/-- Arrays one after another. -/
def concatenatedArrays (args : List Reading) : Render Fragment := do
  let u ← newAlias "arr"
  let rows ← taggedRows valueColumn 1 args
  let order := Fragment.column u "src" ++ ", " ++ Fragment.column u "rn"
  return Fragment.subquery [taggedSource u valueColumn]
    ("SELECT " ++ arrayOf (Fragment.column u valueColumn) true order ++ " FROM " ++ unionOf rows u)

/-- The distinct elements of arrays, in the order in which they first occur. -/
def setUnion (args : List Reading) : Render Fragment := do
  warn (.setElements ArrayOp.setUnion.name)
  let u ← newAlias "arr"
  let d ← newAlias "arr"
  let rows ← taggedRows "s" 1 args
  let least (column : String) :=
    Fragment.call "MIN" [Fragment.column u column] ++ " AS " ++ Fragment.ident column
  let distinct := Fragment.subquery [taggedSource u "s"]
    ("SELECT " ++ Fragment.commas [Fragment.column u "s", least "src", least "rn"] ++
      " FROM " ++ unionOf rows u ++ " GROUP BY " ++ Fragment.column u "s")
  let order := Fragment.column d "src" ++ ", " ++ Fragment.column d "rn"
  return Fragment.subquery [⟨d, .columns ["s", "src", "rn"]⟩]
    ("SELECT " ++ arrayOf (Fragment.column d "s") false order ++
      " FROM " ++ Fragment.derived distinct ++ " " ++ Fragment.ident d)

/-- `EXISTS` of element rows that satisfy a test. -/
def existsElement (d : Dialect) (a : ArraySource) (label : String) (test : Fragment) : Fragment :=
  "EXISTS " ++ overElements d a label "1" (" WHERE " ++ test)

/-- Is a text among the elements of an array? -/
def elementOf (text : Fragment) (array : Reading) : Render Fragment := do
  let a ← array.source
  let label ← newAlias "elem"
  return existsElement (← read).dialect a label
    (Condition.relation .eq (Fragment.column label "s") text).fragment

/-- The distinct elements of the first array that are in all of the others, or in none. -/
def setFilter (op : ArrayOp) (first : Reading) (others : List Reading) (kept : Bool) :
    Render Fragment := do
  warn (.setElements op.name)
  let a ← first.source
  let label ← newAlias "elem"
  let d ← Render.newAlias "arr"
  let s := Fragment.column label "s"
  let tests ← others.mapM fun r => do
    let test ← elementOf s r
    return (if kept then Condition.test test else .testNot test).fragment
  let rest : Fragment := if tests.isEmpty then [] else " WHERE " ++ Fragment.joined " AND " tests
  let distinct := overElements (← read).dialect a label ("DISTINCT " ++ s) rest
  return Fragment.subquery [⟨d, .columns ["s"]⟩]
    ("SELECT " ++ Fragment.call "JSON_ARRAYAGG" [Fragment.column d "s"] ++
      " FROM " ++ Fragment.derived distinct ++ " " ++ Fragment.ident d)

/-- Is every element of one array in another? -/
def subset (left right : Reading) : Render Condition := do
  let a ← left.source
  let label ← newAlias "elem"
  let inRight ← elementOf (Fragment.column label "s") right
  return .testNot (existsElement (← read).dialect a label (Condition.testNot inRight).fragment)

/-- Have all arrays the same elements as the first? -/
def sameElements (first : Reading) (others : List Reading) : Render Condition := do
  let tests ← others.mapM fun r => do
    let forth ← subset first r
    let back ← subset r first
    return [forth, back]
  return .all tests.flatten

/-- The test of an element row against a value: as numbers if the value is a constant number, as
text otherwise. -/
def elementEquals (label : String) (value : Reading) : Render Fragment := do
  if value.expr.isNumber then
    return (Condition.relation .eq (Fragment.column label "n") (← value.number)).fragment
  else
    let v ← value.value (some .varchar)
    return (Condition.relation .eq (Fragment.column label "s") v).fragment

/-- Is a value in an array? -/
def containment (array value : Reading) : Render Condition := do
  match array.expr.items? with
  | some [] => return .constant false
  | some items => membership value items false
  | none =>
    let a ← array.source
    let label ← newAlias "elem"
    return .test (existsElement (← read).dialect a label (← elementEquals label value))

/-- A further test against a number; none if there is no number. -/
def bound (test : Fragment) : Option Reading → Render Fragment
  | none => pure []
  | some r => return test ++ (← r.number)

/-- The position of a value in an array, counted from 0, or -1. -/
def elementPosition (array value : Reading) (start stop : Option Reading) : Render Fragment := do
  let a ← array.source
  let label ← newAlias "elem"
  let rn := Fragment.column label "rn"
  let test ← elementEquals label value
  let above ← bound (" AND " ++ rn ++ " > ") start
  let below ← bound (" AND " ++ rn ++ " <= ") stop
  return overElements (← read).dialect a label
    (Fragment.call "NVL" [Fragment.call "MIN" [rn] ++ " - 1", "-1"])
    (" WHERE " ++ test ++ above ++ below)

/-- The elements from last to first. -/
def reversed (array : Reading) : Render Fragment := do
  let a ← array.source
  let label ← newAlias "elem"
  return overElements (← read).dialect a label
    (arrayOf (Fragment.column label valueColumn) true (Fragment.column label "rn" ++ " DESC")) []

/-- The keyword of a sort direction. -/
def directionText (n : Option Int) : String :=
  if n = some (-1) then " DESC" else " ASC"

/-- The sort terms of `$sortArray`: a direction for the elements, or one for each of several fields.
-/
def elementOrder (d : Dialect) (label : String) : Expr → Result Fragment
  | .lit l =>
    let direction := directionText l.toInt?
    pure (Fragment.column label "n" ++ direction ++ ", " ++ Fragment.column label "s" ++ direction)
  | .document fields =>
    let value := Fragment.column label valueColumn
    pure (Fragment.commas (fields.map fun (key, direction) =>
      jsonValue d value (Path.ofString key).json none ++ directionText direction.int?))
  | _ => fault .sortArrayOrder

/-- The elements in an order. -/
def sortedArray (array : Reading) (order : Expr) : Render Fragment := do
  let a ← array.source
  let label ← newAlias "elem"
  let d := (← read).dialect
  let terms ← elementOrder d label order
  return overElements d a label (arrayOf (Fragment.column label valueColumn) true terms) []

/-- The most elements that `$filter` keeps. -/
def filterLimit (limit : Option Reading) : Result (Option Nat) :=
  match limit with
  | none => pure none
  | some r =>
    match r.expr.int? with
    | some n => if 0 < n then pure (some n.toNat) else unsupported .filterLimit
    | none => unsupported .filterLimit

/-- The elements that satisfy a test, the first ones only if there is a limit. -/
def filtered (array : Reading) (var : String) (test : Reading) (limit : Option Reading) :
    Render Fragment := do
  let a ← array.source
  let label ← newAlias "elem"
  let c ← withElement var label test.condition
  let limit ← filterLimit limit
  let d := (← read).dialect
  let holds := " WHERE " ++ c.fragment
  match limit with
  | none => return overElements d a label (inOrder label) holds
  | some n =>
    let f ← Render.newAlias "arr"
    let rn := Fragment.column label "rn"
    let rows : RowWindow := { limit := some n }
    let kept := overElements d a label (rn ++ ", " ++ Fragment.column label valueColumn)
      (holds ++ " ORDER BY " ++ rn ++ " " ++ rows.fragment)
    return Fragment.subquery [⟨f, .columns ["rn", valueColumn]⟩]
      ("SELECT " ++ inOrder f ++ " FROM " ++ Fragment.derived kept ++ " " ++ Fragment.ident f)

/-- The elements, each replaced by a value computed from it. -/
def mapped (array : Reading) (var : String) (body : Reading) : Render Fragment := do
  let a ← array.source
  let label ← newAlias "elem"
  let (value, json) ← withElement var label body.json
  return overElements (← read).dialect a label
    (arrayOf value json (Fragment.column label "rn")) []

/-- Is the expression the value that a fold has reached? -/
def isFoldValue : Expr → Bool
  | .var "value" none => true
  | _ => false

/-- Does the expression read the value that a fold has reached? -/
def readsFoldValue (e : Expr) : Bool :=
  e.nodes.any fun
    | .var "value" _ => true
    | _ => false

/-- The folds that SQL has an aggregate for. -/
inductive FoldKind where
  | sum
  | concat
deriving DecidableEq, Repr

/-- The kind of a fold and the operands other than the value it has reached: sums with that value as
one operand, and concatenations with it as the first. -/
def foldParts (body : Reading) : Result (FoldKind × List Reading) := do
  let isValue (r : Reading) : Bool := isFoldValue r.expr
  let (kind, rest) ← match body.expr, body.operands with
    | .arith .add _, rs =>
      if (rs.filter isValue).length = 1 then pure (FoldKind.sum, rs.filter fun r => !isValue r)
      else unsupported .reduceFold
    | .text .concat _, r :: rs =>
      if isValue r then pure (FoldKind.concat, rs) else unsupported .reduceFold
    | _, _ => unsupported .reduceFold
  if rest.isEmpty || rest.any fun r => readsFoldValue r.expr then unsupported .reduceValue
  return (kind, rest)

/-- A fold over the elements. -/
def reduced (array initial body : Reading) : Render Fragment := do
  let a ← array.source
  let label ← newAlias "elem"
  let (kind, parts) ← foldParts body
  let d := (← read).dialect
  match kind with
  | .sum =>
    let steps ← withElement "this" label (parts.mapM (·.number))
    let start ← initial.number
    let total := Fragment.call "NVL"
      [Fragment.call "SUM" [Fragment.joined " + " steps], "0"]
    return overElements d a label (start ++ " + " ++ total) []
  | .concat =>
    let steps ← withElement "this" label (parts.mapM (·.scalar))
    let start ← initial.scalar
    let list := Fragment.call "LISTAGG" [Fragment.joined " || " steps, Fragment.string ""]
    let order := Fragment.paren ("ORDER BY " ++ Fragment.column label "rn")
    return overElements d a label (start ++ " || " ++ list ++ " WITHIN GROUP " ++ order) []

/-- An operator on arrays that computes a value. -/
def arrayValue (op : ArrayOp) (input index : Option Reading) (args : List Reading)
    (var : Option String) (type : Option JsonType) : Render Fragment := do
  match op, args with
  | .elemAt, _ =>
    match index with
    | none => fault .noIndex
    | some i => elementAt (← inputOf op input) i type
  | .first, _ => endElement (← inputOf op input) "[0]" type
  | .last, _ => endElement (← inputOf op input) "[last]" type
  | .size, _ => arraySize (← inputOf op input)
  | .slice, rest => do
    let array ← inputOf op input
    match index, rest with
    | none, _ => fault .noCount
    | some count, [] => slice array none count
    | some skip, count :: _ => slice array (some skip) count
  | .concat, rs => concatenatedArrays rs
  | .setUnion, rs => setUnion rs
  | .setIntersection, first :: others => setFilter op first others true
  | .setDifference, first :: others => setFilter op first others false
  | .indexOf, value :: rest => elementPosition (← inputOf op input) value rest[0]? rest[1]?
  | .reverse, _ => reversed (← inputOf op input)
  | .sort, order :: _ => sortedArray (← inputOf op input) order.expr
  | .filter, test :: _ => filtered (← inputOf op input) (var.getD "this") test index
  | .map, body :: _ => mapped (← inputOf op input) (var.getD "this") body
  | .reduce, initial :: body :: _ => reduced (← inputOf op input) initial body
  | _, _ => fault (if op.isCondition then .isCondition op.name else .malformed op.name)

/-- Is any, or is every, element true? -/
def elementTruth (any : Bool) (array : Reading) : Render Condition := do
  let a ← array.source
  let label ← newAlias "elem"
  let d := (← read).dialect
  let s := Fragment.column label "s"
  let isFalse (negated : Bool) :=
    (Condition.among (Fragment.call "LOWER" [s]) falseTexts negated).fragment
  if any then
    return .test (existsElement d a label
      ((Condition.isNotNull s).fragment ++ " AND " ++ isFalse true))
  else
    return .testNot (existsElement d a label
      ((Condition.isNull s).fragment ++ " OR " ++ isFalse false))

/-- An operator on arrays that decides something. -/
def arrayCondition (op : ArrayOp) (input : Option Reading) (args : List Reading) :
    Render Condition := do
  match op, args with
  | .contains, [] => fault .noMember
  | .contains, value :: _ => containment (← inputOf op input) value
  | .isArray, _ => do
    let a ← (← inputOf op input).source
    let type := jsonValue (← read).dialect a.doc (a.step ".type()") none
    return .relation .eq type (Fragment.string "array")
  | .setIsSubset, left :: right :: _ => subset left right
  | .setEquals, first :: others => sameElements first others
  | .anyTrue, _ => elementTruth true (← inputOf op input)
  | .allTrue, _ => elementTruth false (← inputOf op input)
  | _, _ => fault (if op.isCondition then .malformed op.name else .notCondition op.name)

end PipelineSql.Render
