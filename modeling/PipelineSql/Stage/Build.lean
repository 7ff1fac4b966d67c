import PipelineSql.Stage.Projection
import PipelineSql.Expr.Build

/-!
# Building stages

The constructors of sound stages: each refuses counts, names and combinations that its stage does
not take.
-/

namespace PipelineSql

/-- The path of an admissible field name. -/
def fieldName (name : String) : Result Path := do
  checkFieldName name
  return Path.ofString name

/-- The path of a field with or without its leading `$`. -/
def fieldPath (text : String) : Result Path :=
  return (← FieldPath.ofString text).path

/-- The direction of a sort, 1 or -1. -/
def SortOrder.ofInt (n : Int) : Result SortOrder :=
  if n = 1 then pure .ascending
  else if n = -1 then pure .descending
  else fault (.sortDirection n)

namespace WhenMatched

/-- Every behaviour. -/
def all : List WhenMatched := [.replace, .merge, .keepExisting, .fail]

/-- The name in a pipeline. -/
def name : WhenMatched → String
  | .replace => "replace"
  | .merge => "merge"
  | .keepExisting => "keepExisting"
  | .fail => "fail"

/-- The behaviour with a name. -/
def ofName (s : String) : Result WhenMatched :=
  match named? all name s with
  | some w => pure w
  | none => fault (.whenMatched s)

end WhenMatched

namespace WhenNotMatched

/-- Every behaviour. -/
def all : List WhenNotMatched := [.insert, .discard, .fail]

/-- The name in a pipeline. -/
def name : WhenNotMatched → String
  | .insert => "insert"
  | .discard => "discard"
  | .fail => "fail"

/-- The behaviour with a name. -/
def ofName (s : String) : Result WhenNotMatched :=
  match named? all name s with
  | some w => pure w
  | none => fault (.whenNotMatched s)

end WhenNotMatched

/-- Is the expression an accumulator itself? -/
def Expr.isAccumulator : Expr → Bool
  | .accumulate .. => true
  | _ => false

/-- Refuse outputs that have an inadmissible name or are no accumulators. -/
def checkOutputs (stage : String) (outputs : List (Path × Expr)) : Result Unit :=
  outputs.forM fun (name, e) => do
    checkFieldName name.toString
    if !e.isAccumulator then fault (.notAccumulator s!"{stage} output" name.toString)

/-- A grouping. -/
def Group.build (id : Option Expr) (outputs : List (Path × Expr)) : Result Group := do
  outputs.forM fun (name, e) => do
    checkFieldName name.toString
    if name = Projection.idPath then fault .groupNamedId
    if !e.isAccumulator then fault (.notAccumulator "$group field" name.toString)
  return { id, outputs }

/-- A join on equal fields. -/
def Lookup.build (source localField foreignField asField : String) : Result Lookup := do
  checkTableName source
  let asField ← fieldName asField
  let localField ← fieldPath localField
  let foreignField ← fieldPath foreignField
  return { source, asField, localField, foreignField }

/-- The path of the array to unwind. -/
def Unwind.target (text : String) : Result Path :=
  if ['$'].isPrefixOf text.toList then fieldPath text else fault (.unwindPath text)

/-- Does each boundary come before the next? -/
def isAscending : List Literal → Bool
  | a :: b :: rest =>
    (match a, b with
      | .string s, .string t => s < t
      | a, b =>
        match a.toFloat?, b.toFloat? with
        | some x, some y => x < y
        | _, _ => false) && isAscending (b :: rest)
  | _ => true

/-- A grouping between boundaries. -/
def Bucket.build (groupBy : Expr) (boundaries : List Literal) (default : Option Literal)
    (outputs : List (Path × Expr)) : Result Bucket := do
  if boundaries.length < 2 then fault .fewBoundaries
  if !boundaries.all Literal.isNumeric && !boundaries.all (fun b => b.string?.isSome) then
    fault .mixedBoundaries
  if !isAscending boundaries then fault .unsortedBoundaries
  checkOutputs "$bucket" outputs
  return { groupBy, boundaries, default, outputs }

/-- A positive count. -/
def positive (what : String) (n : Int) : Result Nat :=
  if 0 < n then pure n.toNat else fault (.notPositive what n)

/-- A grouping into a number of buckets. -/
def BucketAuto.build (groupBy : Expr) (buckets : Int) (outputs : List (Path × Expr))
    (granularity : Option String) : Result BucketAuto := do
  let buckets ← positive "$bucketAuto buckets" buckets
  checkOutputs "$bucketAuto" outputs
  return { groupBy, buckets, outputs, granularity }

/-- A recursive join. -/
def GraphLookup.build (source : String) (startWith : Expr)
    (connectFrom connectTo asField : String) : Result GraphLookup := do
  checkTableName source
  let asField ← fieldName asField
  let connectFrom ← fieldPath connectFrom
  let connectTo ← fieldPath connectTo
  return { source, startWith, connectFrom, connectTo, asField,
           maxDepth := none, depthField := none, restrict := none }

/-- Fields computed over windows; rankings and shifts need an order. -/
def WindowFields.build (partitionBy : Option Expr) (sortBy : List SortKey)
    (outputs : List (Path × WindowOutput)) : Result WindowFields := do
  if outputs.isEmpty then fault .emptyWindows
  outputs.forM fun (name, out) => do
    checkFieldName name.toString
    if (out.op.isRanking || out.shift.isSome) && sortBy.isEmpty then
      fault (.needsSortBy out.op.name)
  return { partitionBy, sortBy, outputs }

/-- Refuse an inadmissible schema or table. -/
def checkTarget (schema : Option String) (table : String) : Result Unit := do
  schema.forM checkTableName
  checkTableName table

/-- A writing of documents by their `_id`. -/
def Merge.build (schema : Option String) (table : String) : Result Merge := do
  checkTarget schema table
  return { schema, table, on := [Projection.idPath], matched := .merge, unmatched := .insert }

/-- The fields by which documents are matched. -/
def Merge.keys (names : List String) : Result (List Path) :=
  if names.isEmpty then fault .emptyOn else names.mapM fieldName

/-- A writing of the whole result. -/
def Out.build (schema : Option String) (table : String) : Result Out := do
  checkTarget schema table
  return { schema, table }

namespace Stage

/-- Only the first documents. -/
def ofLimit (n : Int) : Result Stage :=
  return .limit (← positive "$limit" n)

/-- All but the first documents. -/
def ofSkip (n : Int) : Result Stage :=
  return .skip (← positive "$skip" n)

/-- Some documents at random. -/
def ofSample (n : Int) : Result Stage :=
  return .sample (← positive "$sample size" n)

/-- The number of documents as a field. -/
def ofCount (field : String) : Result Stage := do
  let cs := field.toList
  if cs.isEmpty || ['$'].isPrefixOf cs || cs.contains '.' then fault (.countName field)
  return .count (← fieldName field)

/-- New fields. -/
def ofFields (fields : List (Path × Expr)) : Result Stage := do
  if fields.isEmpty then fault (.emptyFields "$addFields")
  fields.forM fun (name, _) => checkFieldName name.toString
  return .addFields fields

/-- Fields to remove. -/
def ofUnset (names : List String) : Result Stage := do
  if names.isEmpty then fault (.emptyFields "$unset")
  return .unset (← names.mapM fieldName)

/-- A sort. -/
def ofSort (keys : List SortKey) : Result Stage :=
  if keys.isEmpty then fault .emptySort else return .sort keys none

/-- May the stage stand inside a facet? -/
def isFacetable : Stage → Bool
  | .facet _ => false
  | s => !s.isTerminal

/-- Several pipelines over the same documents. -/
def ofFacets (facets : List (Path × List Stage)) : Result Stage := do
  if facets.isEmpty then fault .emptyFacet
  facets.forM fun (name, stages) => do
    checkFieldName name.toString
    match stages.find? fun s => !s.isFacetable with
    | some bad => fault (.insideFacet bad.name name.toString)
    | none => pure ()
  return .facet facets

/-- A union with a collection, or with a pipeline over it. -/
def ofUnion (source : String) (stages : Option (List Stage)) : Result Stage := do
  checkTableName source
  return .unionWith source stages

/-- A lookup by a pipeline. -/
def ofLookupPipeline (source asField : String) (vars : List (String × Expr))
    (stages : List Stage) : Result Stage := do
  checkTableName source
  return .lookupPipeline source (← fieldName asField) vars stages

end Stage

end PipelineSql
