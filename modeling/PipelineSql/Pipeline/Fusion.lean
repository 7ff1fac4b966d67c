import PipelineSql.Stage.Basic

/-!
# Sorts and row windows fuse

Of sorts in a row only the last counts, limits in a row are the least of them, and skips in a row
add up. A sort learns how many of its first rows are needed.
-/

namespace PipelineSql.Pipeline

/-- A sum of row counts, at most the greatest 64-bit count. -/
def addCounts (a b : Nat) : Nat :=
  min (a + b) (wordCount - 1)

/-- The stages, last first, with another after them, made one with the last where possible. -/
def absorb (stages : List Stage) (s : Stage) : List Stage :=
  match stages, s with
  | .limit m :: rest, .limit n => .limit (min m n) :: rest
  | .skip m :: rest, .skip n => .skip (addCounts m n) :: rest
  | .sort .. :: rest, .sort keys hint => .sort keys hint :: rest
  | _, _ => s :: stages

/-- Stages with runs of limits, skips and sorts made one. -/
def collapse (stages : List Stage) : List Stage :=
  (stages.foldl absorb []).reverse

/-- How many rows the stages after a sort need at most. -/
def needed? : List Stage → Option Nat
  | .limit n :: _ => some n
  | .skip m :: .limit n :: _ => some (addCounts m n)
  | _ => none

/-- Stages whose sorts know how many rows are needed. -/
def hint : List Stage → List Stage
  | [] => []
  | .sort keys known :: rest => .sort keys ((needed? rest).or known) :: hint rest
  | s :: rest => s :: hint rest

/-- Stages with sorts and row windows fused. -/
def fusion (stages : List Stage) : List Stage :=
  hint (collapse stages)

end PipelineSql.Pipeline
