import PipelineSql.Stage.Projection
import PipelineSql.Expr.Fields

/-!
# Filters move earlier

Adjacent filters become one, and each filter moves before the sorts, row windows and projections in
front of it as long as they keep every field that it reads. Where it meets another filter the two
become one.
-/

namespace PipelineSql.Pipeline

/-- Both filters, the operands of a conjunction on the left kept apart. -/
def conjoin (left right : Expr) : Expr :=
  match left with
  | .logic .and operands => .logic .and (operands ++ [right])
  | _ => .logic .and [left, right]

/-- Does a projection let through unchanged what a reference reads? -/
def lets (fields : List (Path × ProjectField)) : Reference → Bool
  | .field path => Projection.preserves fields path
  | .wholeDocument => false

/-- May a filter move before a stage? -/
def canPass (filter : Expr) : Stage → Bool
  | .sort .. | .limit _ | .skip _ => true
  | .project fields => filter.references.all (lets fields)
  | _ => false

/-- The stages, last first, with a filter after them, made one with a filter there. -/
def append (filter : Expr) : List Stage → List Stage
  | .filter earlier :: rest => .filter (conjoin earlier filter) :: rest
  | stages => .filter filter :: stages

/-- The stages, last first, with a filter after them, moved as early as it can. -/
def push (filter : Expr) : List Stage → List Stage
  | [] => [.filter filter]
  | .filter earlier :: rest => .filter (conjoin earlier filter) :: rest
  | s :: rest => if canPass filter s then s :: push filter rest else .filter filter :: s :: rest

/-- The stages, last first, with another after them; `place` puts a filter. -/
def add (place : Expr → List Stage → List Stage) (stages : List Stage) : Stage → List Stage
  | .filter f => place f stages
  | s => s :: stages

/-- Stages with adjacent filters made one. -/
def mergeFilters (stages : List Stage) : List Stage :=
  (stages.foldl (add append) []).reverse

/-- Stages with adjacent filters made one and every filter moved as early as it can. -/
def pushdown (stages : List Stage) : List Stage :=
  ((mergeFilters stages).foldl (add push) []).reverse

end PipelineSql.Pipeline
