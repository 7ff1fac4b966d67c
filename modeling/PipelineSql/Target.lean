import PipelineSql.Dialect

/-!
# Target and options

The table that holds the documents, and how statements are written.
-/

namespace PipelineSql

/-- The table that holds the documents of a collection. -/
structure Target where
  collection : String := ""
  schema : Option String := none
  /-- The column of the documents. -/
  dataColumn : String := "data"
  /-- The column of the keys, which `$merge` matches by. -/
  idColumn : String := "id"
deriving DecidableEq, Repr

namespace Target

/-- The table with its schema. -/
def qualifiedTable (t : Target) : String :=
  match t.schema with
  | some schema => s!"{schema}.{t.collection}"
  | none => t.collection

/-- Refuse a column name that is not admissible. -/
def checkColumn (name : String) : Result Unit :=
  if isTableName name then pure ()
  else .error (.validation [⟨.invalidField, s!"Invalid column name '{name}'"⟩])

/-- Refuse names that are not admissible. -/
def check (t : Target) : Result Unit := do
  checkTableName t.collection
  t.schema.forM checkTableName
  checkColumn t.dataColumn
  checkColumn t.idColumn

end Target

/-- How statements are written. -/
structure Options where
  /-- Are values written in place instead of being bound? -/
  inlineBinds : Bool := false
  /-- Is the text broken into lines? -/
  pretty : Bool := false
  /-- Is a partial deviation an error? -/
  strict : Bool := false
  /-- Is the pipeline rearranged first? -/
  optimize : Bool := true
  dialect : Dialect := .oracle26ai
deriving DecidableEq, Repr

end PipelineSql
