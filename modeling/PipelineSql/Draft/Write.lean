import PipelineSql.Draft.Rows
import PipelineSql.Target

/-!
# Statements that write

`$out` inserts the documents of a draft into a table, and `$merge` merges them into one by key.
-/

namespace PipelineSql

/-- The key field of documents. -/
def idField : Path := ⟨["_id"]⟩

namespace Merge

/-- The alias of the table that is written. -/
def targetAlias : String := "tgt"

/-- The alias of the documents that are written. -/
def sourceAlias : String := "src"

/-- The document of the target. -/
def targetDoc (t : Target) : Fragment :=
  Fragment.column targetAlias t.dataColumn

/-- The document that is written. -/
def sourceDoc (t : Target) : Fragment :=
  Fragment.column sourceAlias t.dataColumn

/-- Are documents matched by their key alone? The target keeps it in a column of its own. -/
def isById (m : Merge) : Bool :=
  m.on.all fun field => field = idField

/-- Two documents agree on a field. -/
def agreement (t : Target) (field : Path) : Condition :=
  let target := if field = idField then Fragment.column targetAlias t.idColumn
    else scalarAt (targetDoc t) field
  .relation .eq target (scalarAt (sourceDoc t) field)

/-- Two documents agree on all key fields. -/
def condition (m : Merge) (t : Target) : Condition :=
  match m.on with
  | [] => .constant true
  | field :: rest => rest.foldl (fun c f => .both c (agreement t f)) (agreement t field)

/-- What happens to matched rows. Columns that the condition reads cannot be updated, so an update
needs documents that are matched by their key. -/
def whenMatched (m : Merge) (t : Target) : Result (Option Fragment) :=
  let update (value : Fragment) : Result (Option Fragment) :=
    if m.isById then return some ("UPDATE SET " ++ targetDoc t ++ " = " ++ value)
    else unsupported .mergeByField
  match m.matched with
  | .keepExisting => return none
  | .fail => unsupported .mergeMatchedFails
  | .replace => update (sourceDoc t)
  | .merge => update (Fragment.call "JSON_MERGEPATCH" [targetDoc t, sourceDoc t])

/-- What happens to documents without a match. -/
def whenUnmatched (m : Merge) (t : Target) : Result (Option Fragment) :=
  match m.unmatched with
  | .discard => return none
  | .fail => unsupported .mergeUnmatchedFails
  | .insert =>
    let key := if m.isById then [(t.idColumn, scalarAt (sourceDoc t) idField)] else []
    let columns := key ++ [(t.dataColumn, sourceDoc t)]
    return some ("INSERT " ++ nameList (columns.map Prod.fst) ++ " VALUES " ++
      Fragment.paren (Fragment.commas (columns.map Prod.snd)))

/-- The statement that merges the rows of a query. -/
def statement (m : Merge) (t : Target) (source : Query) : Result Statement := do
  let matched ← m.whenMatched t
  let unmatched ← m.whenUnmatched t
  if matched.isNone && unmatched.isNone then fault .writesNothing
  let target : TableRef :=
    { table := m.table, schema := m.schema.or t.schema, label := some targetAlias }
  return .merge { target, source, sourceAlias, on := m.condition t, matched, unmatched }

end Merge

namespace Draft

/-- The documents of a draft as a query of their own. -/
def documents (b : Draft) : Render Query := do
  return { ← b.finishDocument with ctes := b.ctes }

/-- `$out` -/
def outStatement (b : Draft) (t : Target) (o : Out) : Render Statement := do
  Render.warn .outAppends
  let target : TableRef := { table := o.table, schema := o.schema.or t.schema }
  return .insert target [t.dataColumn] (← b.documents)

/-- `$merge` -/
def mergeStatement (b : Draft) (t : Target) (m : Merge) : Render Statement := do
  m.statement t (← b.documents)

end Draft

end PipelineSql
