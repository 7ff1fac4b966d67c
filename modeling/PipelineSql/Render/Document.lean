import PipelineSql.Render.Elements

/-!
# Documents
-/

namespace PipelineSql.Render

/-- A document of named values. -/
def document (fields : List (String × Reading)) : Render Fragment := do
  let members ← fields.mapM fun (key, r) => do
    let (value, json) ← r.json
    return Fragment.string key ++ " VALUE " ++ value.formatted json
  return Fragment.call "JSON_OBJECT" members

/-- Documents merged from left to right. -/
def mergedDocuments (args : List Reading) : Render Fragment := do
  match ← args.mapM (·.json) with
  | [] => fault (.malformed ObjectOp.merge.name)
  | (first, _) :: rest =>
    return rest.foldl (fun acc (next, _) => Fragment.call "JSON_MERGEPATCH" [acc, next]) first

/-- The rows of an array of pairs: `k` and `v` of a document, `k0` and `v1` of an array of two. -/
def pairTable (a : ArraySource) : ElementTable :=
  { doc := a.doc
    path := a.elementsPath
    columns := [⟨"k", "VARCHAR2(4000) PATH '$.k'"⟩, ⟨"v", "VARCHAR2(4000) PATH '$.v'"⟩,
      ⟨"k0", "VARCHAR2(4000) PATH '$[0]'"⟩, ⟨"v1", "VARCHAR2(4000) PATH '$[1]'"⟩] }

/-- The document of an array of pairs, either arrays of two or documents of `k` and `v`. -/
def documentOfPairs (array : Reading) : Render Fragment := do
  warn .pairValues
  let a ← array.source
  let label ← newAlias "pair"
  let col := Fragment.column label
  let table := pairTable a
  let rows := table.fragment ++ " " ++ Fragment.ident label
  let pairs := "JSON_OBJECTAGG" ++ Fragment.paren
    ("KEY " ++ Fragment.call "COALESCE" [col "k", col "k0"] ++
      " VALUE " ++ Fragment.call "COALESCE" [col "v", col "v1"])
  return Fragment.subquery [⟨label, .columns table.names⟩] ("SELECT " ++ pairs ++ " FROM " ++ rows)

/-- An operation on documents. -/
def object (op : ObjectOp) (args : List Reading) : Render Fragment := do
  match op, args with
  | .merge, rs => mergedDocuments rs
  | .toArray, _ => unsupported .objectKeys
  | .ofArray, array :: _ => documentOfPairs array
  | .ofArray, [] => fault (.malformed op.name)

/-- The number of foreign documents whose field equals a value of the row. -/
def lookupSize (source : String) (value : Fragment) (foreignField : Path) : Render Fragment := do
  let label ← newAlias source
  let env ← read
  let table : TableRef := { table := source, schema := env.schema, label := some label }
  let foreign := jsonValue env.dialect (Fragment.column label env.dataColumn) foreignField.json none
  return Fragment.subquery [⟨label, table.offer⟩]
    ("SELECT COUNT(*) FROM " ++ table.fragment ++ " WHERE " ++
      (Condition.relation .eq foreign value).fragment)

end PipelineSql.Render
