import PipelineSql.Expr.Equality

/-!
# Window functions and frames

A frame is the part of the partition that a window function sees from each row. Its bounds are
offsets from the current row or the ends of the partition.
-/

namespace PipelineSql

/-- Does a frame count rows or measure values? -/
inductive FrameKind where
  | rows
  | range
deriving DecidableEq, Repr

/-- An end of a frame. -/
inductive FrameBound where
  | unboundedPreceding
  | preceding (n : Nat)
  | currentRow
  | following (n : Nat)
  | unboundedFollowing
deriving DecidableEq, Repr

/-- Which end of a frame a bound is. -/
inductive FrameEnd where
  | lower
  | upper
deriving DecidableEq, Repr

namespace FrameBound

/-- The bound that a literal spells: `"unbounded"`, `"current"` or an offset. -/
def ofLiteral (side : FrameEnd) (bound : Literal) : Result FrameBound :=
  if bound.string? = some "unbounded" then
    match side with
    | .lower => pure .unboundedPreceding
    | .upper => pure .unboundedFollowing
  else if bound.string? = some "current" then pure .currentRow
  else
    match bound.toInt? with
    | some n =>
      if n = 0 then pure .currentRow
      else if n < 0 then pure (.preceding n.natAbs)
      else pure (.following n.natAbs)
    | none => fault (.windowBound bound.text)

/-- The signed distance from the current row, unless the bound is an end of the partition. -/
def offset? : FrameBound → Option Int
  | .preceding n => some (-(n : Int))
  | .currentRow => some 0
  | .following n => some n
  | _ => none

end FrameBound

/-- The rows that a window function sees. -/
structure Frame where
  kind : FrameKind
  lower : FrameBound
  upper : Option FrameBound
deriving DecidableEq, Repr

namespace Frame

/-- From the first row of the partition to the current one. -/
def running : Frame := ⟨.rows, .unboundedPreceding, some .currentRow⟩

/-- The frame between two literal bounds, the lower of which does not come after the upper. -/
def ofLiterals (kind : FrameKind) (lower upper : Literal) : Result Frame := do
  let a ← FrameBound.ofLiteral .lower lower
  let b ← FrameBound.ofLiteral .upper upper
  match a.offset?, b.offset? with
  | some i, some j => if j < i then fault .windowOrder else return ⟨kind, a, some b⟩
  | _, _ => return ⟨kind, a, some b⟩

end Frame

/-- The offset of `$shift` and the value where no row is that far. -/
structure Shift where
  offset : Int
  default : Literal
deriving BEq

/-- A window function applied to an argument. -/
structure WindowOutput where
  op : WindowOp
  arg : Option Expr
  frame : Option Frame := none
  shift : Option Shift := none
deriving BEq

/-- A window function; rankings and counts alone go without an argument. -/
def WindowOutput.ofArgument (op : WindowOp) (arg : Option Expr) : Result WindowOutput :=
  if arg.isNone && !op.isRanking && op != .count then fault (.windowArgument op.name)
  else return { op, arg }

end PipelineSql
