import PipelineSql.Window

/-!
# Stages

A pipeline is a list of stages. Nested pipelines are lists of stages inside a stage. As with
expressions, the constructors check nothing; `PipelineSql.Stage.Build` builds sound stages.
-/

namespace PipelineSql

/-- What a projection does with a field. -/
inductive ProjectField where
  | keep
  | drop
  | computed (value : Expr)
deriving BEq

/-- How a projection treats the fields that it does not list. -/
inductive ProjectionMode where
  /-- Only the listed fields (and `_id`) stay. -/
  | inclusion
  /-- Only the listed fields go. -/
  | exclusion
deriving DecidableEq, Repr

/-- The grouping of documents by a key; without a key all are one group. -/
structure Group where
  id : Option Expr
  outputs : List (Path × Expr)
deriving BEq

/-- The direction of a sort. -/
inductive SortOrder where
  | ascending
  | descending
deriving DecidableEq, Repr

/-- A field to sort by. -/
structure SortKey where
  path : Path
  order : SortOrder
deriving DecidableEq, Repr

/-- The join of a foreign collection on equal fields. -/
structure Lookup where
  source : String
  asField : Path
  localField : Path
  foreignField : Path
deriving DecidableEq, Repr

/-- One document per element of an array. -/
structure Unwind where
  path : Path
  /-- The field that takes the position of the element. -/
  index : Option Path
  /-- Do documents without elements stay? -/
  preserve : Bool
deriving DecidableEq, Repr

/-- The grouping of documents between given boundaries. -/
structure Bucket where
  groupBy : Expr
  boundaries : List Literal
  default : Option Literal
  /-- Empty means a count of the documents. -/
  outputs : List (Path × Expr)
deriving BEq

/-- The grouping of documents into a number of buckets of about equal size. -/
structure BucketAuto where
  groupBy : Expr
  buckets : Nat
  outputs : List (Path × Expr)
  granularity : Option String
deriving BEq

/-- The recursive join of a foreign collection with itself. -/
structure GraphLookup where
  source : String
  startWith : Expr
  connectFrom : Path
  connectTo : Path
  asField : Path
  maxDepth : Option Nat
  depthField : Option Path
  restrict : Option Expr
deriving BEq

/-- Fields computed over windows of documents. -/
structure WindowFields where
  partitionBy : Option Expr
  sortBy : List SortKey
  outputs : List (Path × WindowOutput)
deriving BEq

/-- What happens to a target document that is matched. -/
inductive WhenMatched where
  | replace
  | merge
  | keepExisting
  | fail
deriving DecidableEq, Repr

/-- What happens to a document without a match in the target. -/
inductive WhenNotMatched where
  | insert
  | discard
  | fail
deriving DecidableEq, Repr

/-- The writing of documents into a collection, one by one. -/
structure Merge where
  schema : Option String
  table : String
  on : List Path
  matched : WhenMatched
  unmatched : WhenNotMatched
deriving DecidableEq, Repr

/-- The writing of the whole result into a collection. -/
structure Out where
  schema : Option String
  table : String
deriving DecidableEq, Repr

/-- A step of a pipeline. -/
inductive Stage where
  | filter (test : Expr)
  | project (fields : List (Path × ProjectField))
  | addFields (fields : List (Path × Expr))
  | group (spec : Group)
  /-- `hint` is the number of first documents that are needed at most. -/
  | sort (keys : List SortKey) (hint : Option Nat)
  | limit (n : Nat)
  | skip (n : Nat)
  | sample (n : Nat)
  | lookup (spec : Lookup)
  /-- A lookup by a pipeline that may use variables of the outer document. -/
  | lookupPipeline (source : String) (asField : Path) (vars : List (String × Expr))
    (stages : List Stage)
  | unwind (spec : Unwind)
  | replaceRoot (root : Expr)
  | unset (fields : List Path)
  | count (field : Path)
  | bucket (spec : Bucket)
  | bucketAuto (spec : BucketAuto)
  | facet (facets : List (Path × List Stage))
  | graphLookup (spec : GraphLookup)
  | windowFields (spec : WindowFields)
  | redact (decision : Expr)
  | merge (spec : Merge)
  | out (spec : Out)
  | unionWith (source : String) (stages : Option (List Stage))

/-- Stages over a source, which the target's table stands in for when absent. -/
structure Pipeline where
  source : Option String := none
  stages : List Stage

namespace Stage

/-- The name in a pipeline. -/
def name : Stage → String
  | .filter _ => "$match"
  | .project _ => "$project"
  | .addFields _ => "$addFields"
  | .group _ => "$group"
  | .sort .. => "$sort"
  | .limit _ => "$limit"
  | .skip _ => "$skip"
  | .sample _ => "$sample"
  | .lookup _ | .lookupPipeline .. => "$lookup"
  | .unwind _ => "$unwind"
  | .replaceRoot _ => "$replaceRoot"
  | .unset _ => "$unset"
  | .count _ => "$count"
  | .bucket _ => "$bucket"
  | .bucketAuto _ => "$bucketAuto"
  | .facet _ => "$facet"
  | .graphLookup _ => "$graphLookup"
  | .windowFields _ => "$setWindowFields"
  | .redact _ => "$redact"
  | .merge _ => "$merge"
  | .out _ => "$out"
  | .unionWith .. => "$unionWith"

/-- Does the stage write, so that nothing may follow it? -/
def isTerminal : Stage → Bool
  | .merge _ | .out _ => true
  | _ => false

mutual

/-- Equality of stages. -/
def beq : Stage → Stage → Bool
  | .filter e, .filter e' => e == e'
  | .project fs, .project fs' => fs == fs'
  | .addFields fs, .addFields fs' => fs == fs'
  | .group g, .group g' => g == g'
  | .sort ks h, .sort ks' h' => ks == ks' && h == h'
  | .limit n, .limit n' => n == n'
  | .skip n, .skip n' => n == n'
  | .sample n, .sample n' => n == n'
  | .lookup l, .lookup l' => l == l'
  | .lookupPipeline s a vs ss, .lookupPipeline s' a' vs' ss' =>
    s == s' && a == a' && vs == vs' && beqList ss ss'
  | .unwind u, .unwind u' => u == u'
  | .replaceRoot e, .replaceRoot e' => e == e'
  | .unset fs, .unset fs' => fs == fs'
  | .count f, .count f' => f == f'
  | .bucket b, .bucket b' => b == b'
  | .bucketAuto b, .bucketAuto b' => b == b'
  | .facet fs, .facet fs' => beqFacets fs fs'
  | .graphLookup g, .graphLookup g' => g == g'
  | .windowFields w, .windowFields w' => w == w'
  | .redact e, .redact e' => e == e'
  | .merge m, .merge m' => m == m'
  | .out o, .out o' => o == o'
  | .unionWith s ss, .unionWith s' ss' => s == s' && beqOption ss ss'
  | _, _ => false
termination_by structural x => x

/-- Equality stage by stage. -/
def beqList : List Stage → List Stage → Bool
  | [], [] => true
  | a :: as, b :: bs => beq a b && beqList as bs
  | _, _ => false
termination_by structural x => x

/-- Equality of nested pipelines that may be absent. -/
def beqOption : Option (List Stage) → Option (List Stage) → Bool
  | none, none => true
  | some as, some bs => beqList as bs
  | _, _ => false
termination_by structural x => x

/-- Equality of named pipelines. -/
def beqFacets : List (Path × List Stage) → List (Path × List Stage) → Bool
  | [], [] => true
  | (n, as) :: fs, (m, bs) :: gs => n == m && beqList as bs && beqFacets fs gs
  | _, _ => false
termination_by structural x => x

end

instance : BEq Stage := ⟨beq⟩

end Stage

end PipelineSql
