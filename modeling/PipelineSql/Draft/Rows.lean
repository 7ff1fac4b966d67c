import PipelineSql.Draft.Basic

/-!
# Stages on rows

Stages that add a clause to the query: filters, sorts, row windows and joins.
-/

namespace PipelineSql

/-- `JSON_VALUE(doc, 'path')` -/
def scalarAt (doc : Fragment) (path : Path) : Fragment :=
  Fragment.call "JSON_VALUE" [doc, Fragment.string path.json]

/-- `JSON_ARRAYAGG(doc FORMAT JSON)`, as a large object where there is no JSON type. -/
def documentArray (d : Dialect) (doc : Fragment) : Fragment :=
  let returning : Fragment :=
    if d.hasJsonType then [] else Fragment.text " RETURNING " ++ d.returnType .json
  "JSON_ARRAYAGG" ++ Fragment.paren (doc ++ " FORMAT JSON" ++ returning)

/-- The foreign documents of a lookup, collected by key. -/
def Lookup.collected (l : Lookup) (env : Env) (label : String) : Query :=
  let doc := Fragment.column label env.dataColumn
  let key := scalarAt doc l.foreignField
  { items := [.named key keyColumn, .named (documentArray env.dialect doc) docsColumn]
    source := some (.table { table := l.source, schema := env.schema, label := some label })
    groupBy := [key] }

/-- The elements of an unwound array as rows, with their positions. -/
def Unwind.elements (d : Dialect) (doc : Fragment) (path : String) : ElementTable :=
  { doc
    path := path ++ "[*]"
    columns := [⟨indexColumn, "FOR ORDINALITY"⟩, ⟨valueColumn, d.elementDefinition⟩] }

namespace Draft

/-- `$match`, on rows or directly on groups. -/
def filterStage (b : Draft) (test : Expr) : Render Draft := do
  if b.grouped && !b.windowed && !b.query.rows.isLimited then
    return b.filterGroups (← b.render test.condition)
  let b ← b.rowsReady
  return b.filter (← b.render test.condition)

/-- `$sort`, cut to the rows that are needed if that is known. -/
def sortStage (b : Draft) (keys : List SortKey) (hint : Option Nat) : Render Draft := do
  let b ← b.uncut
  let (terms, byAlias) := orderTerms (← read) b.scope keys true
  let rows := { b.query.rows with limit := hint.or b.query.rows.limit }
  return { b with
    query := { b.query with orderBy := terms, rows }
    sortedByAlias := byAlias
    ordering := keys }

/-- `$limit`, within the rows that are left. -/
def limitStage (b : Draft) (n : Nat) : Draft :=
  let limit := match b.query.rows.limit with
    | none => n
    | some m => min m n
  { b with query := { b.query with rows := { b.query.rows with limit := some limit } } }

/-- `$skip`, which takes from the rows that are left. The sum of the skips goes round at 64 bits. -/
def skipStage (b : Draft) (n : Nat) : Draft :=
  let rows : RowWindow :=
    { offset := some ((b.query.rows.offset.getD 0 + n) % wordCount)
      limit := b.query.rows.limit.map (· - n) }
  { b with query := { b.query with rows } }

/-- `$sample`: the first rows of a random order. -/
def sampleStage (b : Draft) (n : Nat) : Render Draft := do
  let b ← b.uncut
  let b := { b with
    query := { b.query with orderBy := [{ value := randomKey }] }
    sortedByAlias := false
    ordering := [] }
  return b.limitStage n

/-- `$lookup` by equality: a join of the foreign documents, collected by key. -/
def lookupStage (b : Draft) (l : Lookup) : Render Draft := do
  let b ← b.rowsReady
  let label ← Render.newAlias l.source
  let inner ← Render.newAlias l.source
  let env ← read
  let here := ({ env with scope := b.scope }).fieldValue l.localField none
  let b := b.join
    { kind := .left
      source := .subquery (l.collected env inner) label
      on := some (.relation .eq (Fragment.column label keyColumn) here) }
  let found : Found :=
    { asField := l.asField, source := label, key := some ⟨l.source, l.localField, l.foreignField⟩ }
  return b.withScope { b.scope with lookups := b.scope.lookups ++ [found] }

/-- `$unwind`: a join of the elements of an array. -/
def unwindStage (b : Draft) (u : Unwind) : Render Draft := do
  let b ← b.rowsReady
  let env ← read
  match ({ env with scope := b.scope }).location? u.path with
  | none => unsupported (.unwindTarget u.path.toString)
  | some (doc, path) =>
    let label ← Render.newAlias "unwind"
    let table := Unwind.elements env.dialect doc path
    let b := b.join
      { kind := if u.preserve then .left else .cross
        source := .expr table.fragment label table.names
        on := if u.preserve then some (.constant true) else none }
    let unwound : Unwound := { path := u.path, source := label, index := u.index }
    return b.withScope { b.scope with unwinds := b.scope.unwinds ++ [unwound] }

/-- `$redact`: documents are kept unless the decision is to prune them. -/
def redactStage (b : Draft) (decision : Expr) : Render Draft := do
  Render.warn .redactLevel
  let b ← b.rowsReady
  let value ← b.render decision.value
  let prune := Fragment.string "PRUNE"
  return b.filter (.relation .ne (Fragment.call "NVL" [value, prune]) prune)

end Draft

end PipelineSql
