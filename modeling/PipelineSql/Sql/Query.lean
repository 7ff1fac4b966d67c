import PipelineSql.Sql.Clause
import PipelineSql.Sql.Condition

/-!
# Queries

A query as the tree of its clauses, and its layout as a fragment. Line breaks and indentation are
part of the layout and vanish in compact text.
-/

namespace PipelineSql

/-- The kind of a join. -/
inductive JoinKind where
  | inner
  | left
  | cross
deriving DecidableEq, Repr

/-- The operator between the branches of a compound query. -/
inductive SetOperator where
  | union
  | intersect
  | minus
deriving DecidableEq, Repr

/-- How a recursive subquery deals with cycles. -/
structure CycleMark where
  columns : List String
  mark : String
  value : String
  default : String
deriving DecidableEq, Repr

mutual

/-- A query. If it is compound, only its subqueries and its branches count. -/
structure Query where
  ctes : List Cte := []
  items : List SelectItem := []
  distinct : Bool := false
  source : Option Source := none
  joins : List Join := []
  /-- The conditions of the `WHERE` clause, all of which must hold. -/
  filters : List Condition := []
  groupBy : List Fragment := []
  /-- The conditions of the `HAVING` clause, all of which must hold. -/
  having : List Condition := []
  orderBy : List OrderTerm := []
  rows : RowWindow := {}
  compound : Option Compound := none

/-- Where rows come from. -/
inductive Source where
  | table (t : TableRef)
  | subquery (query : Query) (label : String)
  /-- A table-valued expression, with the columns that it offers. -/
  | expr (value : Fragment) (label : String) (columns : List String := [])
  /-- The table of one row. -/
  | dual

/-- A further source of rows. -/
structure Join where
  kind : JoinKind
  source : Source
  on : Option Condition

/-- Two queries combined. -/
structure Compound where
  left : Query
  operator : SetOperator
  all : Bool
  right : Query

/-- A named subquery in front of a query. -/
structure Cte where
  name : String
  columns : Option (List String) := none
  query : Query
  recursive : Bool := false
  cycle : Option CycleMark := none

end

/-- The alias of a source. -/
def Source.label? : Source → Option String
  | .table t => t.label
  | .subquery _ label | .expr _ label _ => some label
  | .dual => none

/-- The keyword of a compound query. -/
def SetOperator.keyword : SetOperator → String
  | .union => "UNION"
  | .intersect => "INTERSECT"
  | .minus => "MINUS"

/-- The keyword of a join. -/
def JoinKind.keyword : JoinKind → String
  | .inner => "INNER JOIN "
  | .left => "LEFT OUTER JOIN "
  | .cross => "CROSS JOIN "

mutual

/-- The names of the columns that a query yields. -/
def Query.columns : Query → List String
  | ⟨_, items, _, _, _, _, _, _, _, _, compound⟩ =>
    match compound with
    | none => items.filterMap SelectItem.column?
    | some c => c.columns

/-- A compound query names its columns as its first branch does. -/
def Compound.columns : Compound → List String
  | ⟨left, _, _, _⟩ => left.columns

end

/-- The name of a subquery with its columns. -/
def Cte.signature (c : Cte) : String × List String :=
  (c.name, c.columns.getD c.query.columns)

/-- The alias of a source with the columns that it offers. -/
def Source.rowSource? : Source → Option RowSource
  | .table t => t.label.map fun label => ⟨label, t.offer⟩
  | .subquery query label => some ⟨label, .columns query.columns⟩
  | .expr _ label columns => some ⟨label, .columns columns⟩
  | .dual => none

namespace Query

/-- The row sources of a query. -/
def rowSources (source : Option Source) (joins : List Join) : List RowSource :=
  (source >>= Source.rowSource?).toList ++ joins.filterMap fun j => j.source.rowSource?

/-- A line break. -/
def newline : Fragment :=
  Token.newline

/-- A clause of comma-separated fragments on a line of its own; nothing if there are none. -/
def listClause (keyword : String) (fs : List Fragment) : Fragment :=
  if fs.isEmpty then [] else newline ++ keyword ++ Fragment.commas fs

/-- A clause of conditions on a line of its own; nothing if there are none. -/
def conditionClause (keyword : String) (cs : List Condition) : Fragment :=
  match Condition.conjunction? cs with
  | none => []
  | some f => newline ++ keyword ++ f

/-- The items of a select list, each on a line of its own. -/
def selectList : List SelectItem → Fragment
  | [] => []
  | [i] => newline ++ Token.indent 1 ++ i.fragment
  | i :: j :: rest => newline ++ Token.indent 1 ++ i.fragment ++ "," ++ selectList (j :: rest)

/-- The row window on a line of its own. -/
def rowClause (rows : RowWindow) : Fragment :=
  if rows.isLimited then newline ++ rows.fragment else []

/-- The cycle clause of a recursive subquery. -/
def cycleClause : Option CycleMark → Fragment
  | none => []
  | some c =>
    newline ++ "CYCLE " ++ Fragment.commas (c.columns.map Fragment.ident) ++ " SET " ++
      Fragment.ident c.mark ++ " TO " ++ Fragment.string c.value ++ " DEFAULT " ++
      Fragment.string c.default

/-- The name of a subquery with its columns. -/
def cteHead (name : String) (columns : Option (List String)) : Fragment :=
  let columns : Fragment := match columns with
    | none => []
    | some cs => " " ++ nameList cs
  Fragment.ident name ++ columns ++ " AS "

/-- A query in brackets on lines of its own. -/
def nested (body : Fragment) : Fragment :=
  Fragment.paren (newline ++ body ++ newline)

/-- The keyword in front of named subqueries. -/
def withKeyword (d : Dialect) (ctes : List Cte) : Fragment :=
  if ctes.isEmpty then []
  else if d.marksRecursion && ctes.any fun c => c.recursive then "WITH RECURSIVE "
  else "WITH "

/-- A branch of a compound query, in brackets if it is sorted or limited by itself. -/
def branch (q : Query) (body : Fragment) : Fragment :=
  if q.compound.isNone && (!q.orderBy.isEmpty || q.rows.isLimited) then Fragment.paren body
  else body

mutual

/-- The layout of a query. -/
def fragment (d : Dialect) : Query → Fragment
  | ⟨ctes, items, distinct, source, joins, filters, groupBy, having, orderBy, rows, compound⟩ =>
    withKeyword d ctes ++ cteScopes d ctes (match compound with
      | some c => compoundFragment d c
      | none =>
        [.group (.query (rowSources source joins) (items.map SelectItem.column?))
          ((if distinct then "SELECT DISTINCT" else "SELECT") ++ selectList items ++
            fromClause d source ++ joinClauses d joins ++
            conditionClause "WHERE " filters ++ listClause "GROUP BY " groupBy ++
            conditionClause "HAVING " having ++
            listClause "ORDER BY " (orderBy.map OrderTerm.fragment) ++ rowClause rows)])

/-- Named subqueries in front of a body. The name of a subquery stands for it from its own body
on. -/
def cteScopes (d : Dialect) : List Cte → Fragment → Fragment
  | [], body => body
  | c :: rest, body =>
    [.group (.named [c.signature]) (cteFragment d c ++ (if rest.isEmpty then [] else ",") ++
      newline ++ cteScopes d rest body)]

/-- A named subquery. -/
def cteFragment (d : Dialect) : Cte → Fragment
  | ⟨name, columns, query, _, cycle⟩ =>
    cteHead name columns ++ nested (fragment d query) ++ cycleClause cycle

/-- The source of rows. -/
def fromClause (d : Dialect) : Option Source → Fragment
  | none => []
  | some s => newline ++ "FROM " ++ sourceFragment d s

/-- A source of rows. -/
def sourceFragment (d : Dialect) : Source → Fragment
  | .table t => t.fragment
  | .subquery query label =>
    Fragment.derived (nested (fragment d query)) ++ " " ++ Fragment.ident label
  | .expr value label _ => value ++ " " ++ Fragment.ident label
  | .dual => "DUAL"

/-- Further sources of rows, each on a line of its own. -/
def joinClauses (d : Dialect) : List Join → Fragment
  | [] => []
  | j :: rest => newline ++ joinFragment d j ++ joinClauses d rest

/-- A further source of rows. -/
def joinFragment (d : Dialect) : Join → Fragment
  | ⟨kind, source, on⟩ =>
    kind.keyword ++ sourceFragment d source ++
      match on with
      | none => []
      | some c => " ON " ++ c.fragment

/-- A compound query. -/
def compoundFragment (d : Dialect) : Compound → Fragment
  | ⟨left, operator, all, right⟩ =>
    branch left (fragment d left) ++ newline ++
      (operator.keyword ++ if all then " ALL" else "") ++ newline ++
      branch right (fragment d right)

end

/-- The text of a query. -/
def print (d : Dialect) (layout : Layout) (q : Query) : String :=
  Token.printAll d layout (q.fragment d).tokens

end Query

end PipelineSql
