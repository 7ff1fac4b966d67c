import PipelineSql.Expr.Basic

/-!
# Equality of expressions

Two expressions are equal when they have the same shape and equal constants. Constants compare as in
`Literal.beq`, so an expression that holds NaN differs from itself.
-/

namespace PipelineSql.Expr

mutual

/-- Equality of expressions. -/
def beq : Expr → Expr → Bool
  | .field f, .field g => f == g
  | .var n p, .var m q => n == m && p == q
  | .lit a, .lit b => a == b
  | .compare op a b, .compare op' a' b' => op == op' && beq a a' && beq b b'
  | .logic op as, .logic op' bs => op == op' && beqList as bs
  | .arith op as, .arith op' bs => op == op' && beqList as bs
  | .array op a i as v, .array op' b j bs w =>
    op == op' && beqOption a b && beqOption i j && beqList as bs && v == w
  | .text op as, .text op' bs => op == op' && beqList as bs
  | .date p a, .date q b => p == q && beq a b
  | .cond t y n, .cond t' y' n' => beq t t' && beq y y' && beq n n'
  | .ifNull as, .ifNull bs => beqList as bs
  | .switch as d, .switch bs e => beqPairs as bs && beqOption d e
  | .accumulate op a, .accumulate op' b => op == op' && beqOption a b
  | .compoundId as, .compoundId bs => beqFields as bs
  | .convert op a t e n, .convert op' b t' e' n' =>
    op == op' && beq a b && t == t' && beqOption e e' && beqOption n n'
  | .lookupSize s l f, .lookupSize s' l' f' => s == s' && l == l' && f == f'
  | .present f b, .present g c => f == g && b == c
  | .object op as, .object op' bs => op == op' && beqList as bs
  | .document as, .document bs => beqFields as bs
  | _, _ => false
termination_by structural x => x

/-- Equality item by item. -/
def beqList : List Expr → List Expr → Bool
  | [], [] => true
  | a :: as, b :: bs => beq a b && beqList as bs
  | _, _ => false
termination_by structural x => x

/-- Equality of optional expressions. -/
def beqOption : Option Expr → Option Expr → Bool
  | none, none => true
  | some a, some b => beq a b
  | _, _ => false
termination_by structural x => x

/-- Equality of branches. -/
def beqPairs : List (Expr × Expr) → List (Expr × Expr) → Bool
  | [], [] => true
  | (a, b) :: as, (c, d) :: bs => beq a c && beq b d && beqPairs as bs
  | _, _ => false
termination_by structural x => x

/-- Equality of named expressions. -/
def beqFields : List (String × Expr) → List (String × Expr) → Bool
  | [], [] => true
  | (n, a) :: as, (m, b) :: bs => n == m && beq a b && beqFields as bs
  | _, _ => false
termination_by structural x => x

end

instance : BEq Expr := ⟨beq⟩

end PipelineSql.Expr
