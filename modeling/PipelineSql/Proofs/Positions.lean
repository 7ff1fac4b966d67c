import PipelineSql.Expr.Shape
import PipelineSql.Proofs.Reading

/-!
# Positions of arguments

A renderer takes some arguments of an operator by their position. The bounds on the number of
arguments are kept apart from the renderers, so that the least number an operator admits must be
large enough for the positions that its renderer takes.
-/

namespace PipelineSql

/-! ## Operators -/

/-- How many operands the renderer takes by position. -/
def Connective.positions : Connective → Nat
  | .not => 1
  | _ => 0

/-- How many operands the renderer takes by position; signs stand between all of them. -/
def Arithmetic.positions (op : Arithmetic) : Nat :=
  if op.sign?.isSome then 0 else 1

/-- How many arguments the renderer takes by position. -/
def TextOp.positions : TextOp → Nat
  | concat => 0
  | toLower | toUpper | trim | ltrim | rtrim | length => 1
  | substr | split | indexOf | regexMatch | regexFind => 2
  | replaceOne | replaceAll => 3

/-- The arguments that are positions in a text, to which the renderer adds 1. -/
def TextOp.counted {α : Type} : TextOp → List α → List α
  | .substr, _ :: start :: _ => [start]
  | .indexOf, _ :: _ :: start :: _ => [start]
  | _, _ => []

lemma TextOp.mem_counted_indexOf {α : Type} {a b r : α} {rest : List α} (h : rest[0]? = some r) :
    r ∈ TextOp.indexOf.counted (a :: b :: rest) := by
  cases rest with
  | nil => cases h
  | cons start rest =>
    cases h
    exact List.mem_cons_self

lemma TextOp.map_counted {α β : Type} (f : α → β) (op : TextOp) (args : List α) :
    (op.counted args).map f = op.counted (args.map f) := by
  cases op <;> rcases args with _ | ⟨_, _ | ⟨_, _ | _⟩⟩ <;> rfl

/-- Is the expression the last integer, to which 1 cannot be added? -/
def Expr.isLast (e : Expr) : Bool :=
  e.int?.any fun i => !isInt64 (i + 1)

/-- Is a position in a text the last integer? -/
def Expr.atLimit : Expr → Bool
  | .text op args => (op.counted args).any isLast
  | _ => false

/-- How many arguments the renderer takes by position, besides the array and the index. -/
def ArrayOp.positions : ArrayOp → Nat
  | reduce | setIsSubset => 2
  | filter | map | sort | indexOf | contains | setIntersection | setDifference | setEquals => 1
  | _ => 0

/-- How many arguments the renderer takes by position. -/
def ObjectOp.positions : ObjectOp → Nat
  | .merge | .ofArray => 1
  | .toArray => 0

lemma Connective.positions_le_least (op : Connective) : op.positions ≤ op.arity.least := by
  cases op <;> decide

lemma Arithmetic.positions_le_least (op : Arithmetic) : op.positions ≤ op.arity.least := by
  cases op <;> decide

lemma TextOp.positions_le_least (op : TextOp) : op.positions ≤ op.arity.least := by
  cases op <;> decide

lemma ArrayOp.positions_le_least (op : ArrayOp) : op.positions ≤ op.arity.least := by
  cases op <;> decide

lemma ObjectOp.positions_le_least (op : ObjectOp) : op.positions ≤ op.arity.least := by
  cases op <;> decide

/-! ## Nodes -/

/-- Positions below the least number of arguments are below every number that passes the check. -/
lemma le_of_checkArity {name : String} {bounds : Arity} {k n : Nat} (hk : k ≤ bounds.least)
    (h : checkArity name bounds n = .ok ()) : k ≤ n :=
  Nat.le_trans hk (Arity.admits_iff.1 ((Result.ensures_checkArity name bounds n).value h)).1

namespace Expr

/-- How many arguments, operands or branches a node has. -/
def argumentCount : Expr → Nat
  | .logic _ args | .arith _ args | .text _ args | .object _ args | .array _ _ _ args _
  | .ifNull args => args.length
  | .switch branches _ => branches.length
  | _ => 0

/-- How many of them the renderer of the node counts on: those that it takes by position, and at
least one branch. -/
def positions : Expr → Nat
  | .logic op _ => op.positions
  | .arith op _ => op.positions
  | .text op _ => op.positions
  | .object op _ => op.positions
  | .array op _ _ _ _ => op.positions
  | .ifNull _ | .switch _ _ => 1
  | _ => 0

/-- A node that passes the check has an argument for every position. -/
lemma positions_le_argumentCount {e : Expr} (h : e.checkShape = .ok ()) :
    e.positions ≤ e.argumentCount := by
  cases e with
  | logic op args => exact le_of_checkArity op.positions_le_least h
  | arith op args => exact le_of_checkArity op.positions_le_least h
  | text op args => exact le_of_checkArity op.positions_le_least h
  | object op args => exact le_of_checkArity op.positions_le_least h
  | array op input index args var => exact le_of_checkArity op.positions_le_least h
  | ifNull args =>
    have hleast : 1 ≤ ifNullArity.least := by decide
    exact le_of_checkArity hleast h
  | switch branches default =>
    cases branches with
    | nil => cases h
    | cons b rest => exact Nat.succ_pos rest.length
  | _ => exact Nat.zero_le _

end Expr

end PipelineSql
