import PipelineSql.Expr.Basic

/-!
# Shape of an expression

Each operator bounds the number of its arguments. The check looks at one node, not below it.
-/

namespace PipelineSql

/-- Refuse a number of arguments outside the bounds. -/
def checkArity (name : String) (bounds : Arity) (got : Nat) : Result Unit :=
  if bounds.admits got then pure () else fault (.arity name bounds got)

/-- `$ifNull` takes at least two arguments. -/
def ifNullArity : Arity := .atLeast 2

/-- Refuse a node with a wrong number of arguments. -/
def Expr.checkShape : Expr → Result Unit
  | .logic op operands => checkArity op.name op.arity operands.length
  | .arith op operands => checkArity op.name op.arity operands.length
  | .text op args => checkArity op.name op.arity args.length
  | .object op args => checkArity op.name op.arity args.length
  | .array op _ _ args _ => checkArity op.name op.arity args.length
  | .ifNull args => checkArity "$ifNull" ifNullArity args.length
  | .switch [] _ => fault .noBranch
  | _ => pure ()

end PipelineSql
