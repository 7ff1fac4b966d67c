import PipelineSql.Draft.Rows

/-!
# Recursive lookups

A `$graphLookup` walks a foreign collection in a recursive subquery. Every foreign document is a
start, each step follows one field of a document to the documents with that value in another, and
the documents that are reached are collected by start.
-/

namespace PipelineSql

namespace GraphLookup

/-- The value that a walk starts from. -/
def startColumn : String := "start_k"

/-- The key of a reached document. -/
def docIdColumn : String := "doc_id"

/-- A reached document. -/
def docColumn : String := "doc"

/-- The value that the next step looks for. -/
def nextColumn : String := "next_k"

/-- The number of steps to a document. -/
def depthColumn : String := "depth"

/-- The position of a document among those of its start with its key, nearest first. -/
def rankColumn : String := "rn"

/-- The columns of the recursive subquery. -/
def columns : List String :=
  [startColumn, docIdColumn, docColumn, nextColumn, depthColumn]

/-- A walk does not pass a document twice. -/
def cycle : CycleMark :=
  { columns := [startColumn, docIdColumn], mark := "is_cycle", value := "Y", default := "N" }

/-- The foreign collection under an alias. -/
def table (g : GraphLookup) (env : Env) (label : String) : Source :=
  .table { table := g.source, schema := env.schema, label := some label }

/-- The condition on foreign documents, if any. -/
def restriction (g : GraphLookup) (label : String) : Render (List Condition) := do
  let scope := Scope.document label (← read).dataColumn
  let condition ← g.restrict.mapM fun e => Render.within scope e.condition
  return condition.toList

/-- The row of a foreign document in the recursive subquery. -/
def row (g : GraphLookup) (start doc depth : Fragment) : List SelectItem :=
  [⟨start, none⟩, ⟨scalarAt doc ⟨["_id"]⟩, none⟩, ⟨doc, none⟩, ⟨scalarAt doc g.connectFrom, none⟩,
    ⟨depth, none⟩]

/-- The foreign documents as starts. -/
def starts (g : GraphLookup) : Render Query := do
  let label ← Render.newAlias g.source
  let env ← read
  let doc := Fragment.column label env.dataColumn
  return {
    items := g.row (scalarAt doc g.connectTo) doc "0"
    source := some (g.table env label)
    filters := ← g.restriction label }

/-- A further step from the rows of the recursive subquery. -/
def steps (g : GraphLookup) (cte : String) : Render Query := do
  let here ← Render.newAlias "g"
  let label ← Render.newAlias g.source
  let env ← read
  let doc := Fragment.column label env.dataColumn
  let depth := Fragment.column here depthColumn
  let reached : Condition :=
    .relation .eq (scalarAt doc g.connectTo) (Fragment.column here nextColumn)
  let bound := g.maxDepth.toList.map fun (n : Nat) => Condition.relation .lt depth (Fragment.int n)
  return {
    items := g.row (Fragment.column here startColumn) doc (depth ++ " + 1")
    source := some (.table { table := cte, label := some here, isSubquery := true })
    joins := [{ kind := .inner, source := g.table env label, on := some reached }]
    filters := bound ++ (← g.restriction label) }

/-- The recursive subquery. -/
def walk (g : GraphLookup) (name : String) : Render Cte := do
  let left ← g.starts
  let right ← g.steps name
  return {
    name
    columns := some columns
    query := { compound := some { left, operator := .union, all := true, right } }
    recursive := true
    cycle := some cycle }

/-- The rows of the recursive subquery with their ranks. -/
def ranked (cte : String) : Query :=
  let ident := Fragment.ident
  let rank := "ROW_NUMBER() OVER " ++ Fragment.paren
    ("PARTITION BY " ++ Fragment.commas [ident startColumn, ident docIdColumn] ++
      " ORDER BY " ++ ident depthColumn)
  { items := [⟨ident startColumn, none⟩, ⟨ident docColumn, none⟩, ⟨ident depthColumn, none⟩,
      .named rank rankColumn]
    source := some (.table { table := cte, isSubquery := true }) }

/-- The reached documents, collected by start. The nearest row of a document stands for it. -/
def collected (g : GraphLookup) (d : Dialect) (cte label : String) : Query :=
  let depth : Option Computed :=
    g.depthField.map fun name => ⟨name, Fragment.column label depthColumn, false⟩
  let scope := depth.toList.foldl Scope.compute (.document label docColumn)
  let start := Fragment.column label startColumn
  { items := [.named start keyColumn,
      .named (documentArray d (scope.documentValue d)) docsColumn]
    source := some (.subquery (ranked cte) label)
    filters := [.relation .eq (Fragment.column label rankColumn) "1"]
    groupBy := [start] }

end GraphLookup

/-- `$graphLookup` -/
def Draft.graphStage (b : Draft) (g : GraphLookup) : Render Draft := do
  Render.warn .graphStarts
  let b ← b.rowsReady
  let start ← b.render g.startWith.value
  let cte ← Render.newAlias "graph"
  let walk ← g.walk cte
  Render.hoist walk
  let ranked ← Render.newAlias "q"
  let label ← Render.newAlias g.source
  let b := b.join
    { kind := .left
      source := .subquery (g.collected (← read).dialect cte ranked) label
      on := some (.relation .eq (Fragment.column label keyColumn) start) }
  let found : Found := { asField := g.asField, source := label, key := none }
  return { b.withScope { b.scope with lookups := b.scope.lookups ++ [found] } with
    ctes := b.ctes ++ [walk] }

end PipelineSql
