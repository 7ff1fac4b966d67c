import PipelineSql.Expr.Basic

/-!
# What an expression reads

The nodes of an expression in reading order, and the parts of the document that they read.
-/

namespace PipelineSql

/-- A part of the document that an expression reads. -/
inductive Reference where
  | field (path : Path)
  | wholeDocument
deriving DecidableEq, Repr

/-- The reference in a report. -/
def Reference.text : Reference → String
  | .field path => path.toString
  | .wholeDocument => "$$ROOT"

namespace Expr

mutual

/-- An expression and all below it, each node before its parts. -/
def nodes : Expr → List Expr
  | e@(.compare _ left right) => e :: (nodes left ++ nodes right)
  | e@(.logic _ operands) => e :: nodesOfList operands
  | e@(.arith _ operands) => e :: nodesOfList operands
  | e@(.array _ input index args _) =>
    e :: (nodesOfOption input ++ nodesOfOption index ++ nodesOfList args)
  | e@(.text _ args) => e :: nodesOfList args
  | e@(.object _ args) => e :: nodesOfList args
  | e@(.date _ arg) => e :: nodes arg
  | e@(.cond test yes no) => e :: (nodes test ++ nodes yes ++ nodes no)
  | e@(.ifNull args) => e :: nodesOfList args
  | e@(.switch branches default) => e :: (nodesOfPairs branches ++ nodesOfOption default)
  | e@(.accumulate _ arg) => e :: nodesOfOption arg
  | e@(.compoundId fields) => e :: nodesOfFields fields
  | e@(.document fields) => e :: nodesOfFields fields
  | e@(.convert _ arg _ onError onNull) =>
    e :: (nodes arg ++ nodesOfOption onError ++ nodesOfOption onNull)
  | e => [e]

/-- The nodes of each expression of a list. -/
def nodesOfList : List Expr → List Expr
  | [] => []
  | e :: es => nodes e ++ nodesOfList es

/-- The nodes of an expression that may be absent. -/
def nodesOfOption : Option Expr → List Expr
  | none => []
  | some e => nodes e

/-- The nodes of each branch, its test first. -/
def nodesOfPairs : List (Expr × Expr) → List Expr
  | [] => []
  | (a, b) :: rest => nodes a ++ nodes b ++ nodesOfPairs rest

/-- The nodes of each named expression. -/
def nodesOfFields : List (String × Expr) → List Expr
  | [] => []
  | (_, e) :: rest => nodes e ++ nodesOfFields rest

end

/-- The variables that stand for the document. -/
def isDocumentVar (name : String) : Bool :=
  name == "ROOT" || name == "CURRENT"

/-- What one node reads by itself. -/
def reference? : Expr → Option Reference
  | .field f => some (.field f.path)
  | .present f _ => some (.field f.path)
  | .var name path =>
    if isDocumentVar name then
      match path with
      | some p => some (.field p)
      | none => some .wholeDocument
    else none
  | .lookupSize _ localField _ => some (.field localField)
  | _ => none

/-- Everything an expression reads, in reading order. -/
def references (e : Expr) : List Reference :=
  e.nodes.filterMap reference?

/-- Is there an accumulator in the expression? -/
def hasAccumulator (e : Expr) : Bool :=
  e.nodes.any fun
    | .accumulate .. => true
    | _ => false

end Expr

end PipelineSql
