import PipelineSql.Render.Accumulate

/-!
# Window functions

A function over the rows of a partition. Rankings and shifts depend on the order alone; the others
see a frame, which is the whole partition unless one is given.
-/

namespace PipelineSql.Render

/-- The whole partition. -/
def wholePartition : Frame := ⟨.rows, .unboundedPreceding, some .unboundedFollowing⟩

/-- Does the function depend on the order of rows alone? -/
def isPositional (op : WindowOp) : Bool :=
  op.isRanking || op = .shift

/-- The `OVER` clause: the partition and its order, and a frame if there is an order to frame. -/
def overClause (out : WindowOutput) (partition : Fragment) (ordered : Bool) : Fragment :=
  let frame : Fragment :=
    if !isPositional out.op && ordered then " " ++ (out.frame.getD wholePartition).fragment else []
  " OVER " ++ Fragment.paren (partition ++ frame)

/-- The value of another row of the partition. -/
def shifted (arg : Reading) (shift : Shift) (window : Fragment) : Render Fragment := do
  let f ← arg.scalar
  if shift.offset = 0 then return f
  let function := if 0 < shift.offset then "LEAD" else "LAG"
  let distance := Fragment.int shift.offset.natAbs
  if shift.default.isNull then return Fragment.call function [f, distance] ++ window
  return Fragment.call function [f, distance, ← literal shift.default] ++ window

/-- A window function over a partition. -/
def windowFunction (out : WindowOutput) (arg : Option Reading) (partition : Fragment)
    (ordered : Bool) : Render Fragment := do
  let op := out.op
  if isPositional op && !ordered then fault (.needsSortBy op.name)
  let window := overClause out partition ordered
  match op with
  | .rank => return "RANK()" ++ window
  | .denseRank => return "DENSE_RANK()" ++ window
  | .documentNumber => return "ROW_NUMBER()" ++ window
  | .count => return "COUNT(*)" ++ window
  | .sum => return Fragment.call "SUM" [← (← argumentOf op.name arg).number] ++ window
  | .avg => return Fragment.call "AVG" [← (← argumentOf op.name arg).number] ++ window
  | .stdDevPop => return Fragment.call "STDDEV_POP" [← (← argumentOf op.name arg).number] ++ window
  | .stdDevSamp => return Fragment.call "STDDEV_SAMP" [← (← argumentOf op.name arg).number] ++ window
  | .min => extreme op.name false (← argumentOf op.name arg) window
  | .max => extreme op.name true (← argumentOf op.name arg) window
  | .first => return Fragment.call "FIRST_VALUE" [← (← argumentOf op.name arg).scalar] ++ window
  | .last => return Fragment.call "LAST_VALUE" [← (← argumentOf op.name arg).scalar] ++ window
  | .shift =>
    match out.shift with
    | none => fault .shiftWithoutBy
    | some shift => shifted (← argumentOf op.name arg) shift window
  | .push => unsupported (.analyticArray op.name)

end PipelineSql.Render
