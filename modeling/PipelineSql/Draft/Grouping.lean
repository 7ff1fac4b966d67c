import PipelineSql.Draft.Basic
import PipelineSql.Stage.Projection

/-!
# Grouping stages

The key of a group is selected and grouped by, so its values are written in place: the two texts
must be the same.
-/

namespace PipelineSql.Draft

/-- The key of a group, whether it is JSON text, and the terms to group by. -/
structure GroupKey where
  id : Fragment
  json : Bool
  terms : List Fragment

/-- A group key made of named parts. -/
def compoundKey (fields : List (String × Expr)) : Render GroupKey := do
  let parts ← fields.mapM fun (name, e) => do return (name, ← e.value)
  let entries : List Entry := parts.map fun (name, f) =>
    { name := .ofString name, value := f, json := false }
  return { id := Entry.object entries, json := true, terms := parts.map Prod.snd }

/-- The key of a group. A constant key makes all rows one group. -/
def groupKey (id : Option Expr) : Render GroupKey :=
  Render.inlined do
    match id with
    | none => return { id := Fragment.null, json := false, terms := [] }
    | some (.lit l) => return { id := ← Render.literal l, json := l.items?.isSome, terms := [] }
    | some (.compoundId fields) | some (.document fields) => compoundKey fields
    | some e =>
      let f ← e.value
      return { id := f, json := false, terms := [f] }

/-- The columns of accumulators. -/
def accumulatorColumns (stage : String) (outputs : List (Path × Expr)) : Render (List Column) :=
  outputs.mapM fun (name, e) => do
    match e with
    | .accumulate op arg =>
      let (f, json) ← Expr.aggregate op arg
      return { name, value := .output f, json }
    | _ => fault (.notAccumulator s!"{stage} field" name.toString)

/-- A count of rows. -/
def countColumn (name : Path) : Column :=
  { name, value := .output "COUNT(*)", json := false }

/-- The columns of a bucketing: a count unless others are given. -/
def bucketColumns (stage : String) (outputs : List (Path × Expr)) : Render (List Column) :=
  if outputs.isEmpty then pure [countColumn ⟨["count"]⟩] else accumulatorColumns stage outputs

/-- The column of the group key. -/
def idColumn (id : Fragment) (json : Bool) : Column :=
  { name := Projection.idPath, value := .output id, json }

/-- No row for no input, which an aggregate without groups would have. -/
def requireRows (b : Draft) : Draft :=
  b.filterGroups (.relation .gt "COUNT(*)" "0")

/-- The draft with groups. -/
def grouping (b : Draft) (terms : List Fragment) (columns : List Column) : Draft :=
  { b with query := { b.query with groupBy := terms }, grouped := true, scope := { columns } }

/-- `$group` -/
def groupStage (b : Draft) (g : Group) : Render Draft := do
  let b ← b.groupingReady
  let key ← b.render (groupKey g.id)
  let columns ← b.render (accumulatorColumns "$group" g.outputs)
  let b := if key.terms.isEmpty then b.requireRows else b
  return b.grouping key.terms (idColumn key.id key.json :: columns)

/-- `$count` -/
def countStage (b : Draft) (field : Path) : Render Draft := do
  let b ← b.groupingReady
  return b.requireRows.grouping b.query.groupBy [countColumn field]

/-- The identity of a bucket. Numbers become text where the default is text, so that all have one
type. -/
def bucketId (asText : Bool) (l : Literal) : Render Fragment :=
  if asText && l.isNumeric then pure (Fragment.string l.text) else Render.literal l

/-- Is the subject between two boundaries, the lower included? -/
def between (subject : Fragment) (low high : Literal) : Render Condition := do
  let l ← Render.literal low
  let h ← Render.literal high
  return .both (.relation .gte subject l) (.relation .lt subject h)

/-- The buckets between boundaries, each with its lower boundary. -/
def buckets (subject : Fragment) : List Literal → Render (List (Condition × Literal))
  | low :: high :: rest => do
    let c ← between subject low high
    return (c, low) :: (← buckets subject (high :: rest))
  | _ => pure []

/-- The text of a bucketing. -/
structure BucketKey where
  /-- The identity of the bucket. -/
  id : Fragment
  /-- Is the subject in any bucket? -/
  inRange : Condition
  /-- The position of the bucket, where identities do not sort by it. -/
  rank : Option Fragment

/-- The position of a bucket; the default comes last among numbers and first among strings. -/
def bucketRank (conditions : List Condition) (defaultRank : Nat) : Fragment :=
  let branches := (conditions.zip (List.range' 1 conditions.length)).map fun (c, i) =>
    (c.fragment, Fragment.int i)
  Fragment.call "MIN" [Fragment.cases branches (some (Fragment.int defaultRank))]

/-- What is compared with the boundaries: a number if they are numbers. -/
def bucketSubject (spec : Bucket) (numeric : Bool) : Render Fragment :=
  if numeric then spec.groupBy.typed .number else spec.groupBy.value

/-- The key of a bucketing. -/
def bucketKey (spec : Bucket) (numeric asText : Bool) : Render BucketKey :=
  Render.inlined do
    let subject ← bucketSubject spec numeric
    let found ← buckets subject spec.boundaries
    let branches ← found.mapM fun (c, low) => do return (c.fragment, ← bucketId asText low)
    let default ← spec.default.mapM (bucketId asText)
    let inRange ← between subject (spec.boundaries.headD .null) (spec.boundaries.getLastD .null)
    let rank := bucketRank (found.map Prod.fst) (if numeric then spec.boundaries.length else 0)
    let rank := if asText then some rank else none
    return { id := Fragment.cases branches default, inRange, rank }

/-- The draft with buckets as groups, in the order of the buckets. -/
def bucketed (b : Draft) (key : BucketKey) (columns : List Column) : Draft :=
  let b := b.grouping [key.id] (idColumn key.id false :: columns)
  let term : OrderTerm := { value := key.rank.getD key.id, direction := some .ascending }
  { b with
    query := { b.query with orderBy := [term] }
    ordering := if key.rank.isSome then b.ordering else [⟨Projection.idPath, .ascending⟩] }

/-- `$bucket` -/
def bucketStage (b : Draft) (spec : Bucket) : Render Draft := do
  let b ← b.groupingReady
  let numeric := spec.boundaries.all Literal.isNumeric
  let asText := spec.default.any fun l => !l.isNull && l.isNumeric != numeric
  if asText then Render.warn .bucketIds
  let key ← b.render (bucketKey spec numeric asText)
  let columns ← b.render (bucketColumns "$bucket" spec.outputs)
  let b := if spec.default.isNone then b.filter key.inRange else b
  return b.bucketed key columns

/-- The draft whose rows carry the number of their bucket and the value that decides it. -/
def numbered (b : Draft) (count : Nat) (subject : Fragment) : Draft :=
  let tile := Fragment.call "NTILE" [Fragment.int count] ++ " OVER " ++
    Fragment.paren ("ORDER BY " ++ subject ++ " NULLS FIRST")
  let extras := [.named tile "bucket", .named subject "bucket_key"]
  b.withScope { b.scope with extras := b.scope.extras ++ extras }

/-- The least and greatest value of a bucket. -/
def bucketBounds (label : String) : Fragment :=
  let key := Fragment.column label "bucket_key"
  Fragment.call "JSON_OBJECT"
    [Fragment.string "min" ++ " VALUE " ++ Fragment.call "MIN" [key],
      Fragment.string "max" ++ " VALUE " ++ Fragment.call "MAX" [key]]

/-- The draft with the buckets of numbered rows as groups, in the order of the buckets. -/
def groupedByNumber (b : Draft) (label : String) (columns : List Column) : Draft :=
  let bucket := Fragment.column label "bucket"
  let b := b.grouping [bucket] (idColumn (bucketBounds label) true :: columns)
  let term : OrderTerm := { value := bucket, direction := some .ascending }
  { b with query := { b.query with orderBy := [term] } }

/-- `$bucketAuto`: rows are numbered by bucket in one query and grouped in the query around it. -/
def bucketAutoStage (b : Draft) (spec : BucketAuto) : Render Draft := do
  Render.warn .bucketBounds
  spec.granularity.forM fun name => Render.warn (.granularity name)
  let b ← b.groupingReady
  let subject ← b.render (spec.groupBy.typed .number)
  let (b, label) ← (b.numbered spec.buckets subject).wrapAs
  let columns ← b.render (bucketColumns "$bucketAuto" spec.outputs)
  return b.groupedByNumber label columns

end PipelineSql.Draft
