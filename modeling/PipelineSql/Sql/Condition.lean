import PipelineSql.Sql.Fragment
import PipelineSql.Operator

/-!
# Conditions

The conditions of SQL, kept as a tree so that their meaning can be read off without parsing. Groups
of conditions carry their own brackets.
-/

namespace PipelineSql

/-- A condition of SQL. -/
inductive Condition where
  /-- `1 = 1` or `1 = 0` -/
  | constant (truth : Bool)
  /-- `v IS NULL` -/
  | isNull (value : Fragment)
  /-- `v IS NOT NULL` -/
  | isNotNull (value : Fragment)
  /-- `l = r`, `l < r` and so on -/
  | relation (op : Comparison) (left right : Fragment)
  /-- `v IN (…)` or `v NOT IN (…)` -/
  | among (value : Fragment) (items : List Fragment) (negated : Bool)
  /-- A predicate such as `EXISTS (…)` -/
  | test (predicate : Fragment)
  /-- `NOT` before a predicate -/
  | testNot (predicate : Fragment)
  /-- `a AND b`, without brackets -/
  | both (left right : Condition)
  /-- `(a AND b AND …)` -/
  | all (conditions : List Condition)
  /-- `(a OR b OR …)` -/
  | any (conditions : List Condition)
  /-- `NOT (a OR b OR …)` -/
  | none (conditions : List Condition)

namespace Condition

/-- A constant condition. -/
def constantText (truth : Bool) : String :=
  if truth then "1 = 1" else "1 = 0"

mutual

/-- The fragment of a condition. -/
def fragment : Condition → Fragment
  | .constant truth => constantText truth
  | .isNull value => value ++ " IS NULL"
  | .isNotNull value => value ++ " IS NOT NULL"
  | .relation op left right => left ++ s!" {op.sql} " ++ right
  | .among value items negated =>
    value ++ (if negated then " NOT IN " else " IN ") ++ Fragment.paren (Fragment.commas items)
  | .test predicate => predicate
  | .testNot predicate => "NOT " ++ predicate
  | .both left right => left.fragment ++ " AND " ++ right.fragment
  | .all conditions => Fragment.paren (Fragment.joined " AND " (fragments conditions))
  | .any conditions => Fragment.paren (Fragment.joined " OR " (fragments conditions))
  | .none conditions => "NOT " ++ Fragment.paren (Fragment.joined " OR " (fragments conditions))

/-- The fragments of conditions. -/
def fragments : List Condition → List Fragment
  | [] => []
  | c :: cs => c.fragment :: fragments cs

end

instance : Coe Condition Fragment := ⟨fragment⟩

/-- All of the conditions in one fragment, each round but a lone one in brackets: `(a) AND (b)`. -/
def conjunction? : List Condition → Option Fragment
  | [] => Option.none
  | c :: cs => some (cs.foldl
      (fun acc c => Fragment.paren acc ++ " AND " ++ Fragment.paren c.fragment) c.fragment)

end Condition

end PipelineSql
