import PipelineSql.Render
import PipelineSql.Stage.Basic
import PipelineSql.Sql.Statement

/-!
# Drafts

The query under construction together with the scope of its rows. A stage refines a draft. Where it
cannot, because the query has already grouped, windowed or cut its rows, the query is wrapped as a
subquery and the stage refines the query around it.
-/

namespace PipelineSql

/-- The query under construction. -/
structure Draft where
  query : Query
  scope : Scope
  /-- Does the query group its rows? -/
  grouped : Bool := false
  /-- Does the row carry values of window functions? -/
  windowed : Bool := false
  /-- Does the query sort by columns of its own? -/
  sortedByAlias : Bool := false
  /-- The keys of the current order, which wrapping keeps. -/
  ordering : List SortKey := []
  /-- The named subqueries so far. -/
  ctes : List Cte := []

namespace Draft

/-- A draft over a source of rows. -/
def ofSource (source : Source) (scope : Scope) (ctes : List Cte) : Draft :=
  { query := { source := some source }, scope, ctes }

/-- A draft over the documents of a collection. -/
def ofCollection (collection label : String) (ctes : List Cte) : Render Draft := do
  let env ← read
  let table : TableRef := { table := collection, schema := env.schema, label := some label }
  return ofSource (.table table) (.document label env.dataColumn) ctes

/-- Can rows still be joined or filtered? -/
def acceptsRows (b : Draft) : Bool :=
  !b.grouped && !b.windowed && !b.query.rows.isLimited

/-- Can the rows be grouped? -/
def acceptsGrouping (b : Draft) : Bool :=
  b.acceptsRows && b.query.orderBy.isEmpty

/-- Can the select list be replaced without an effect on the order, the groups or the windows? -/
def acceptsReshape (b : Draft) : Bool :=
  !b.grouped && !b.windowed && !b.sortedByAlias

/-- Render against the rows of a draft. -/
def render {α : Type} (b : Draft) (r : Render α) : Render α :=
  Render.within b.scope r

/-- The draft with another scope. -/
def withScope (b : Draft) (scope : Scope) : Draft :=
  { b with scope }

/-- The finished query, which selects the row. -/
def finish (b : Draft) : Render Query := do
  let env ← read
  return { b.query with items := b.scope.selectItems env.dialect env.dataColumn }

/-- The finished query, which selects the row as one document. -/
def finishDocument (b : Draft) : Render Query := do
  let env ← read
  let value := b.scope.documentValue env.dialect
  let item : SelectItem := match b.scope.doc with
    | some (.column _ name) =>
      if name = env.dataColumn && !b.scope.hasPending then ⟨value, none⟩
      else .named value env.dataColumn
    | _ => .named value env.dataColumn
  return { b.query with items := [item] }

/-- The draft around the current query, without its order, and the alias of that query. -/
def wrapAs (b : Draft) : Render (Draft × String) := do
  let label ← Render.newAlias "q"
  let query ← b.finish
  let scope := b.scope.wrapped label (← read).dataColumn
  return (ofSource (.subquery query label) scope b.ctes, label)

/-- Is the fragment an alias by itself? -/
def isAlias : Fragment → Bool
  | [.token (.ident _)] => true
  | _ => false

/-- The sort term of a field, and whether it is a column of the query itself. Fields of a stored
document sort as JSON where the release can compare them. -/
def sortValue (env : Env) (scope : Scope) (path : Path) (ownColumns : Bool) : Fragment × Bool :=
  match scope.resolve path ownColumns with
  | .value f _ => (f, isAlias f)
  | .place l =>
    if l.dotted && !l.steps.isEmpty && env.dialect.hasJsonType then (l.dotFragment, false)
    else (({ env with scope }).fieldValue path none, false)
  | .missing => (Fragment.null, false)

/-- A sort term. Null and missing come before all else. -/
def orderTerm (value : Fragment) : SortOrder → OrderTerm
  | .ascending => { value, direction := some .ascending, nullsFirst := some true }
  | .descending => { value, direction := some .descending, nullsFirst := some false }

/-- The sort terms of keys, and whether any is a column of the query itself. -/
def orderTerms (env : Env) (scope : Scope) (keys : List SortKey) (ownColumns : Bool) :
    List OrderTerm × Bool :=
  let terms := keys.map fun k => (sortValue env scope k.path ownColumns, k.order)
  (terms.map fun ((value, _), order) => orderTerm value order,
    terms.any fun ((_, own), _) => own)

/-- The draft around the current query, in the same order. -/
def wrap (b : Draft) : Render Draft := do
  let (outer, _) ← b.wrapAs
  if b.ordering.isEmpty then return outer
  let (terms, _) := orderTerms (← read) outer.scope b.ordering false
  return { outer with query := { outer.query with orderBy := terms }, ordering := b.ordering }

/-- The draft, wrapped if that is needed. -/
def wrapIf (b : Draft) (needed : Bool) : Render Draft :=
  if needed then b.wrap else pure b

/-- A draft whose rows can be joined and filtered. -/
def rowsReady (b : Draft) : Render Draft :=
  b.wrapIf !b.acceptsRows

/-- A draft whose rows can be grouped; their order is lost. -/
def groupingReady (b : Draft) : Render Draft := do
  if b.acceptsGrouping then return b
  return (← b.wrapAs).1

/-- A draft whose select list can be replaced. -/
def reshapeReady (b : Draft) : Render Draft :=
  b.wrapIf !b.acceptsReshape

/-- A draft that is not cut to some rows. -/
def uncut (b : Draft) : Render Draft :=
  b.wrapIf b.query.rows.isLimited

/-- The draft with one more condition on its rows. -/
def filter (b : Draft) (c : Condition) : Draft :=
  { b with query := { b.query with filters := b.query.filters ++ [c] } }

/-- The draft with one more condition on its groups. -/
def filterGroups (b : Draft) (c : Condition) : Draft :=
  { b with query := { b.query with having := b.query.having ++ [c] } }

/-- The draft with one more source of rows. -/
def join (b : Draft) (j : Join) : Draft :=
  { b with query := { b.query with joins := b.query.joins ++ [j] } }

/-- Does the expression read a field that this query computes? -/
def readsComputed (scope : Scope) (e : Expr) : Bool :=
  e.references.any fun
    | .wholeDocument => true
    | .field path => scope.computed.any fun c => path.overlaps c.name

end Draft

end PipelineSql
