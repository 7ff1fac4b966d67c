import PipelineSql.Grammar.Expression

/-!
# Grammar of stages

A stage is a document with one key, the stage's name, over its specification.
-/

namespace PipelineSql.Grammar

/-- Named expressions whose names are paths. -/
def pathFields (doc : Phrases) : Result (List (Path × Expr)) :=
  doc.mapM fun (name, p) => return (Path.ofString name, ← p.expr)

/-- Named accumulators. -/
def accumulators (doc : Phrases) : Result (List (Path × Expr)) :=
  doc.mapM fun (name, p) => return (Path.ofString name, ← accumulator name p)

/-- A required string option. -/
def textOption (doc : Phrases) (key what : String) : Result String := do
  (← doc.required key what).string s!"{what} '{key}'"

/-- The keys of a sort. -/
def sortKeys (p : Phrase) (what : String) : Result (List SortKey) := do
  (← p.document what).mapM fun (text, direction) => do
    match direction.json with
    | .obj _ => unsupported (.metaSort what text)
    | _ => do
      let path ← fieldPath text
      let order ← SortOrder.ofInt (← direction.integer what)
      return { path, order }

/-- What a projection does with one field. -/
def projectField (p : Phrase) : Result ProjectField :=
  match p.flag? with
  | some true => pure .keep
  | some false => pure .drop
  | none => return .computed (← p.expr)

/-- `$project`. -/
def project (spec : Phrase) : Result Stage := do
  let fields ← (← spec.document "$project").mapM fun (name, p) =>
    return (Path.ofString name, ← projectField p)
  Projection.check fields
  return .project fields

/-- The key of a group: null for none, a document for a compound key. -/
def groupId (p : Phrase) : Result (Option Expr) :=
  match p.json with
  | .null => pure none
  | .obj (_ :: _) =>
    if p.entries.all fun (key, _) => !isReference key then do
      return some (← Expr.ofCompoundId (← Phrases.exprs p.entries))
    else return some (← p.expr)
  | _ => return some (← p.expr)

/-- `$group`. -/
def group (spec : Phrase) : Result Stage := do
  let doc ← spec.document "$group"
  let id ← groupId (← doc.required "_id" "$group")
  let outputs ← accumulators (doc.filter fun (name, _) => name != "_id")
  return .group (← Group.build id outputs)

/-- `$lookup`, by equal fields or by a pipeline. -/
def lookup (spec : Phrase) : Result Stage := do
  let doc ← spec.document "$lookup"
  let source ← textOption doc "from" "$lookup"
  let asField ← textOption doc "as" "$lookup"
  match doc.lookup "pipeline" with
  | some nested =>
    doc.only ["from", "let", "pipeline", "as"] "$lookup"
    let vars ← doc.optional "let" fun p => do (← p.document "$lookup 'let'").exprs
    let stages ← nested.pipeline
    Stage.ofLookupPipeline source asField (vars.getD []) stages
  | none =>
    doc.only ["from", "localField", "foreignField", "as"] "$lookup"
    let localField ← textOption doc "localField" "$lookup"
    let foreignField ← textOption doc "foreignField" "$lookup"
    return .lookup (← Lookup.build source localField foreignField asField)

/-- `$unwind`, as a path or as a document. -/
def unwind (spec : Phrase) : Result Stage :=
  match spec.json with
  | .str text => return .unwind { path := ← Unwind.target text, index := none, preserve := false }
  | _ => do
    let doc ← spec.document "$unwind"
    doc.only ["path", "includeArrayIndex", "preserveNullAndEmptyArrays"] "$unwind"
    let path ← Unwind.target (← (← doc.required "path" "$unwind").string "$unwind path")
    let index ← doc.optional "includeArrayIndex" fun p => do
      fieldName (← p.string "includeArrayIndex")
    let preserve ← doc.optional "preserveNullAndEmptyArrays"
      (·.boolean "preserveNullAndEmptyArrays")
    return .unwind { path, index, preserve := preserve.getD false }

/-- The outputs of a bucketing. -/
def outputs (doc : Phrases) (what : String) : Result (List (Path × Expr)) := do
  let found ← doc.optional "output" fun p => do
    accumulators (← p.document s!"{what} output")
  return found.getD []

/-- `$bucket`. -/
def bucket (spec : Phrase) : Result Stage := do
  let doc ← spec.document "$bucket"
  doc.only ["groupBy", "boundaries", "default", "output"] "$bucket"
  let bounds ← (← doc.required "boundaries" "$bucket").literal "$bucket boundaries"
  match bounds with
  | .array boundaries =>
    let default ← doc.optional "default" (·.literal "$bucket default")
    let outputs ← outputs doc "$bucket"
    let groupBy ← (← doc.required "groupBy" "$bucket").expr
    return .bucket (← Bucket.build groupBy boundaries default outputs)
  | _ => fault (.wrongKind "$bucket boundaries" .array)

/-- `$bucketAuto`. -/
def bucketAuto (spec : Phrase) : Result Stage := do
  let doc ← spec.document "$bucketAuto"
  doc.only ["groupBy", "buckets", "output", "granularity"] "$bucketAuto"
  let granularity ← doc.optional "granularity" (·.string "$bucketAuto granularity")
  let groupBy ← (← doc.required "groupBy" "$bucketAuto").expr
  let buckets ← (← doc.required "buckets" "$bucketAuto").integer "$bucketAuto buckets"
  let outputs ← outputs doc "$bucketAuto"
  return .bucketAuto (← BucketAuto.build groupBy buckets outputs granularity)

/-- `$facet`. -/
def facet (spec : Phrase) : Result Stage := do
  let facets ← (← spec.document "$facet").mapM fun (name, p) =>
    return (Path.ofString name, ← p.pipeline)
  Stage.ofFacets facets

/-- A depth of zero or more. -/
def depth (n : Int) : Result Nat :=
  if n < 0 then fault (.negativeDepth n) else pure n.toNat

/-- `$graphLookup`. -/
def graphLookup (spec : Phrase) : Result Stage := do
  let what := "$graphLookup"
  let doc ← spec.document what
  doc.only ["from", "startWith", "connectFromField", "connectToField", "as", "maxDepth",
    "depthField", "restrictSearchWithMatch"] what
  let source ← textOption doc "from" what
  let startWith ← (← doc.required "startWith" what).expr
  let connectFrom ← textOption doc "connectFromField" what
  let connectTo ← textOption doc "connectToField" what
  let asField ← textOption doc "as" what
  let graph ← GraphLookup.build source startWith connectFrom connectTo asField
  let maxDepth ← doc.optional "maxDepth" fun p => do depth (← p.integer "maxDepth")
  let depthField ← doc.optional "depthField" fun p => do fieldName (← p.string "depthField")
  let restrict ← doc.optional "restrictSearchWithMatch" (·.filter)
  return .graphLookup { graph with maxDepth, depthField, restrict }

/-- The frame of a window. -/
def windowFrame (p : Phrase) : Result Frame := do
  let doc ← p.document "window"
  if doc.has "unit" then unsupported .timeWindow
  let (key, bounds) ← doc.single "window"
  let kind ← match key with
    | "documents" => pure .rows
    | "range" => pure .range
    | _ => fault (.windowOption key)
  match ← bounds.array "window bounds" with
  | [lower, upper] =>
    let lower ← lower.literal "window bound"
    let upper ← upper.literal "window bound"
    Frame.ofLiterals kind lower upper
  | _ => fault .windowBounds

/-- `$shift`. -/
def windowShift (arg : Phrase) : Result WindowOutput := do
  let doc ← arg.document "$shift"
  doc.only ["output", "by", "default"] "$shift"
  let default ← doc.optional "default" (·.literal "$shift default")
  let value ← (← doc.required "output" "$shift").expr
  let offset ← (← doc.required "by" "$shift").integer "$shift by"
  let out ← WindowOutput.ofArgument .shift (some value)
  return { out with shift := some ⟨offset, default.getD .null⟩ }

/-- A window function over its argument. -/
def windowFunction (op : WindowOp) (arg : Phrase) : Result WindowOutput :=
  if op = .shift then windowShift arg
  else if op.isRanking || op = .count then
    if arg.isEmptyDocument then WindowOutput.ofArgument op none else fault (.takesNothing op.name)
  else do WindowOutput.ofArgument op (some (← arg.expr))

/-- One output of `$setWindowFields`. -/
def windowOutput (name : String) (p : Phrase) : Result WindowOutput := do
  let what := s!"window output '{name}'"
  let doc ← p.document what
  match doc.filter fun (key, _) => key != "window" with
  | [(opName, arg)] =>
    let op ← known WindowOp.ofName? opName
    let out ← windowFunction op arg
    let frame ← doc.optional "window" windowFrame
    return { out with frame }
  | _ => fault (.windowOperator what)

/-- `$setWindowFields`. -/
def windowFields (spec : Phrase) : Result Stage := do
  let what := "$setWindowFields"
  let doc ← spec.document what
  doc.only ["partitionBy", "sortBy", "output"] what
  let partitionBy ← doc.optional "partitionBy" (·.expr)
  let sortBy ← doc.optional "sortBy" (sortKeys · "sortBy")
  let outputs ← (← (← doc.required "output" what).document "$setWindowFields output").mapM
    fun (name, p) => return (Path.ofString name, ← windowOutput name p)
  return .windowFields (← WindowFields.build partitionBy (sortBy.getD []) outputs)

/-- A collection to write to, with or without its schema. -/
def target (p : Phrase) (what : String) : Result (Option String × String) :=
  match p.json with
  | .str table => pure (none, table)
  | _ => do
    let doc ← p.document what
    doc.only ["db", "coll"] what
    let schema ← doc.optional "db" (·.string what)
    let table ← (← doc.required "coll" what).string what
    return (schema, table)

/-- The behaviour on a match, which may not be a pipeline. -/
def whenMatched (p : Phrase) : Result WhenMatched :=
  match p.json with
  | .arr _ => unsupported .mergePipeline
  | _ => do WhenMatched.ofName (← p.string "whenMatched")

/-- `$merge`. -/
def merge (spec : Phrase) : Result Stage :=
  match spec.json with
  | .str table => return .merge (← Merge.build none table)
  | _ => do
    let doc ← spec.document "$merge"
    doc.only ["into", "on", "let", "whenMatched", "whenNotMatched"] "$merge"
    if doc.has "let" then unsupported .mergeVariables
    let (schema, table) ← target (← doc.required "into" "$merge") "$merge 'into'"
    let base ← Merge.build schema table
    let on ← doc.optional "on" fun p => do Merge.keys (← p.names "$merge 'on'")
    let matched ← doc.optional "whenMatched" whenMatched
    let unmatched ← doc.optional "whenNotMatched" fun p => do
      WhenNotMatched.ofName (← p.string "whenNotMatched")
    return .merge { base with
      on := on.getD base.on
      matched := matched.getD base.matched
      unmatched := unmatched.getD base.unmatched }

/-- `$out`. -/
def out (spec : Phrase) : Result Stage := do
  let (schema, table) ← target spec "$out"
  return .out (← Out.build schema table)

/-- `$unionWith`. -/
def unionWith (spec : Phrase) : Result Stage :=
  match spec.json with
  | .str source => Stage.ofUnion source none
  | _ => do
    let doc ← spec.document "$unionWith"
    doc.only ["coll", "pipeline"] "$unionWith"
    let source ← textOption doc "coll" "$unionWith"
    let stages ← doc.optional "pipeline" (·.pipeline)
    Stage.ofUnion source stages

/-- `$replaceRoot`. -/
def replaceRoot (spec : Phrase) : Result Stage := do
  let doc ← spec.document "$replaceRoot"
  doc.only ["newRoot"] "$replaceRoot"
  return .replaceRoot (← (← doc.required "newRoot" "$replaceRoot").expr)

/-- `$sample`. -/
def sample (spec : Phrase) : Result Stage := do
  let doc ← spec.document "$sample"
  doc.only ["size"] "$sample"
  Stage.ofSample (← (← doc.required "size" "$sample").integer "$sample size")

/-- The stage of a name and its specification. -/
def stageNamed (name : String) (spec : Phrase) : Result Stage :=
  match name with
  | "$match" => return .filter (← spec.filter)
  | "$project" => project spec
  | "$addFields" | "$set" => do Stage.ofFields (← pathFields (← spec.document name))
  | "$group" => group spec
  | "$sort" => do Stage.ofSort (← sortKeys spec "$sort")
  | "$limit" => do Stage.ofLimit (← spec.integer "$limit")
  | "$skip" => do Stage.ofSkip (← spec.integer "$skip")
  | "$lookup" => lookup spec
  | "$unwind" => unwind spec
  | "$replaceRoot" => replaceRoot spec
  | "$replaceWith" => return .replaceRoot (← spec.expr)
  | "$unset" => do Stage.ofUnset (← spec.names name)
  | "$count" => do Stage.ofCount (← spec.string name)
  | "$bucket" => bucket spec
  | "$bucketAuto" => bucketAuto spec
  | "$facet" => facet spec
  | "$graphLookup" => graphLookup spec
  | "$setWindowFields" => windowFields spec
  | "$redact" => return .redact (← spec.expr)
  | "$merge" => merge spec
  | "$out" => out spec
  | "$unionWith" => unionWith spec
  | "$sample" => sample spec
  | _ => .error (.unknownOperator name)

/-- The stage that a document spells. -/
def stage (doc : Phrases) : Result Stage := do
  let (name, spec) ← doc.single "stage"
  stageNamed name spec

end PipelineSql.Grammar
