import PipelineSql.Path

/-!
# Errors

Every way a pipeline can be refused, by cause. A fault is a mistake in the shape of the pipeline, a
limitation is a feature that has no counterpart in SQL, a deviation is one that has only an
imperfect counterpart and becomes an error in strict mode, and an issue is a finding of the
validator.
-/

namespace PipelineSql

/-- How many arguments an operator takes. -/
structure Arity where
  least : Nat
  /-- No upper bound if absent. -/
  most : Option Nat
deriving DecidableEq, Repr

namespace Arity

/-- Exactly `n` arguments. -/
def exactly (n : Nat) : Arity := ⟨n, some n⟩

/-- At least `n` arguments. -/
def atLeast (n : Nat) : Arity := ⟨n, none⟩

/-- From `a` to `b` arguments. -/
def between (a b : Nat) : Arity := ⟨a, some b⟩

/-- Is a number of arguments within the bounds? -/
def admits (a : Arity) (n : Nat) : Bool :=
  a.least ≤ n && a.most.all (n ≤ ·)

/-- The bounds in words. -/
def describe (a : Arity) : String :=
  match a.most with
  | none => s!"at least {a.least}"
  | some most => if a.least = most then s!"exactly {most}" else s!"{a.least} to {most}"

end Arity

/-- How faithful a statement is to its pipeline, from best to worst. -/
inductive Capability where
  | full
  | emulated
  | partly
deriving DecidableEq, Repr

namespace Capability

/-- The place in the order from best to worst. -/
def rank : Capability → Nat
  | .full => 0
  | .emulated => 1
  | .partly => 2

/-- The worse of two. -/
def worse (a b : Capability) : Capability :=
  if a.rank < b.rank then b else a

/-- The name in a result. -/
def name : Capability → String
  | .full => "full_support"
  | .emulated => "emulated"
  | .partly => "partial"

end Capability

/-- The kind of JSON value that a place in a pipeline asks for. -/
inductive JsonKind where
  | document
  | array
  | string
  | integer
  | boolean
  | literal
deriving DecidableEq, Repr

/-- The kind with its article. -/
def JsonKind.describe : JsonKind → String
  | .document => "a document"
  | .array => "an array"
  | .string => "a string"
  | .integer => "an integer"
  | .boolean => "a boolean"
  | .literal => "a literal value"

/-- A mistake in the shape of a pipeline. -/
inductive Fault where
  | wrongKind (what : String) (kind : JsonKind)
  | missingKey (what key : String)
  | keyCount (what : String) (got : Nat)
  | unknownOption (what key : String)
  | arity (name : String) (bounds : Arity) (got : Nat)
  | variableAsField (text : String)
  | notVariable (text : String)
  | emptyMembership (name : String)
  | computedMembership (name : String)
  | noBranch
  | noArgument (name : String)
  | emptyCompoundId
  | convertNeedsTarget
  | convertTarget (name : String)
  | namedArguments (name : String)
  | mixedOperator (name : String)
  | mixedFilter (path key : String)
  | optionsWithoutRegex
  | existsFlag
  | countAccumulator
  | emptyProjection
  | mixedProjection
  | emptyFields (stage : String)
  | groupNamedId
  | notAccumulator (place name : String)
  | sortDirection (n : Int)
  | emptySort
  | unwindPath (text : String)
  | fewBoundaries
  | mixedBoundaries
  | unsortedBoundaries
  | notPositive (what : String) (n : Int)
  | negativeDepth (n : Int)
  | emptyWindows
  | needsSortBy (name : String)
  | windowArgument (name : String)
  | windowOperator (what : String)
  | takesNothing (name : String)
  | windowOption (key : String)
  | windowBounds
  | windowBound (text : String)
  | windowOrder
  | whenMatched (text : String)
  | whenNotMatched (text : String)
  | emptyOn
  | countName (text : String)
  | emptyFacet
  | insideFacet (stage facet : String)
  | noInput (name : String)
  | noIndex
  | noCount
  | sortArrayOrder
  | regexOptions
  | noTarget
  | notTarget (name : String)
  | shiftWithoutBy
  | misplaced (stage : String)
  | writesNothing
  /-- A membership test met without a value, which its shape check has already refused. -/
  | noMember
  /-- An operator that decides something was asked for a value. -/
  | isCondition (name : String)
  /-- An operator that computes a value was asked to decide something. -/
  | notCondition (name : String)
  /-- An operator met with fewer arguments than its shape check admits. -/
  | malformed (name : String)
  /-- A checked sum of integers left their range. -/
  | overflow
deriving DecidableEq, Repr

namespace Fault

/-- The text of a fault. -/
def message : Fault → String
  | .wrongKind what kind => s!"{what} must be {kind.describe}"
  | .missingKey what key => s!"{what} requires '{key}'"
  | .keyCount what got => s!"{what} must have exactly one key, got {got}"
  | .unknownOption what key => s!"{what}: unrecognized option '{key}'"
  | .arity name bounds got => s!"{name} requires {bounds.describe} argument(s), got {got}"
  | .variableAsField text => s!"'{text}' is a variable reference, not a field path"
  | .notVariable text => s!"'{text}' is not a variable reference"
  | .emptyMembership name => s!"{name} requires a non-empty array of values"
  | .computedMembership name => s!"{name} requires an array of literal values"
  | .noBranch => "$switch requires at least one branch"
  | .noArgument name => s!"{name} requires an argument"
  | .emptyCompoundId => "compound _id requires at least one field"
  | .convertNeedsTarget => "$convert requires a 'to' target; use Expression::convert"
  | .convertTarget name => s!"$convert: unsupported target type '{name}'"
  | .namedArguments name => s!"{name} takes named arguments"
  | .mixedOperator name => s!"operator '{name}' cannot be mixed with document fields"
  | .mixedFilter path key => s!"'{path}': field '{key}' cannot be mixed with query operators"
  | .optionsWithoutRegex => "$options requires $regex"
  | .existsFlag => "$exists requires a boolean"
  | .countAccumulator => "$count accumulator takes '\x7b\x7d'"
  | .emptyProjection => "$project requires at least one field"
  | .mixedProjection => "$project cannot mix inclusion and exclusion (except _id)"
  | .emptyFields stage => s!"{stage} requires at least one field"
  | .groupNamedId => "$group accumulator cannot be named _id"
  | .notAccumulator place name => s!"{place} '{name}' must be an accumulator"
  | .sortDirection n => s!"sort direction must be 1 or -1, got {n}"
  | .emptySort => "$sort requires at least one key"
  | .unwindPath text => s!"$unwind path must start with '$', got '{text}'"
  | .fewBoundaries => "$bucket requires at least two boundaries"
  | .mixedBoundaries => "$bucket boundaries must all be numbers or all be strings"
  | .unsortedBoundaries => "$bucket boundaries must be sorted in ascending order"
  | .notPositive what n => s!"{what} must be positive, got {n}"
  | .negativeDepth n => s!"$graphLookup maxDepth must be non-negative, got {n}"
  | .emptyWindows => "$setWindowFields requires at least one output"
  | .needsSortBy name => s!"{name} requires sortBy"
  | .windowArgument name => s!"window operator {name} requires an argument"
  | .windowOperator what => s!"{what} must have exactly one operator"
  | .takesNothing name => name ++ " takes '\x7b\x7d'"
  | .windowOption key => s!"window: unrecognized option '{key}'"
  | .windowBounds => "window bounds must be [lower, upper]"
  | .windowBound text => s!"invalid window bound {text}"
  | .windowOrder => "window lower bound must not be after the upper bound"
  | .whenMatched text => s!"$merge: invalid whenMatched '{text}'"
  | .whenNotMatched text => s!"$merge: invalid whenNotMatched '{text}'"
  | .emptyOn => "$merge 'on' must not be empty"
  | .countName text => s!"$count field '{text}' must be a non-empty name without '$' or '.'"
  | .emptyFacet => "$facet requires at least one sub-pipeline"
  | .insideFacet stage facet => s!"{stage} is not allowed inside $facet '{facet}'"
  | .noInput name => s!"{name} requires an input array"
  | .noIndex => "$arrayElemAt requires an index"
  | .noCount => "$slice requires a count"
  | .sortArrayOrder => "$sortArray sortBy must be 1, -1 or a document of directions"
  | .regexOptions => "regex options must be a string literal"
  | .noTarget => "$convert requires a 'to' target"
  | .notTarget name => s!"{name} is not a conversion target"
  | .shiftWithoutBy => "$shift requires 'by'"
  | .misplaced stage => s!"{stage} must be the last stage"
  | .writesNothing =>
    "$merge with whenMatched 'keepExisting' and whenNotMatched 'discard' writes nothing"
  | .noMember => "$in requires a value and an array"
  | .isCondition name => s!"{name} is a condition"
  | .notCondition name => s!"{name} is not a condition"
  | .malformed name => s!"{name} is malformed"
  | .overflow => "attempt to add with overflow"

end Fault

/-- A feature whose SQL counterpart differs from it in some cases. -/
inductive Deviation where
  | nullOperand (name : String)
  | secondOperand (name : String)
  | operandType (name : String)
  | elementType (name : String)
  | rowOrder (name : String)
  | scalarSet
  | setElements (name : String)
  | pairValues
  | splitEscapes
  | captureGroups
  | typeNames
  | numericStrings
  | sliceBounds
  | redactLevel
  | bucketIds
  | bucketBounds
  | granularity (name : String)
  | graphStarts
  | outAppends
deriving DecidableEq, Repr

namespace Deviation

/-- The operator or stage that deviates. -/
def feature : Deviation → String
  | .nullOperand name | .secondOperand name | .operandType name | .elementType name
  | .rowOrder name | .setElements name => name
  | .scalarSet => "$addToSet"
  | .pairValues => "$arrayToObject"
  | .splitEscapes => "$split"
  | .captureGroups => "$regexFind"
  | .typeNames => "$type"
  | .numericStrings => "$isNumber"
  | .sliceBounds => "$slice"
  | .redactLevel => "$redact"
  | .bucketIds => "$bucket"
  | .bucketBounds | .granularity _ => "$bucketAuto"
  | .graphStarts => "$graphLookup"
  | .outAppends => "$out"

/-- What differs. -/
def message : Deviation → String
  | .nullOperand _ => "a NULL operand makes the result NULL"
  | .secondOperand _ => "second operand ignored"
  | .operandType _ =>
    "operand type is unknown; numbers order before strings and the result is text"
  | .elementType _ =>
    "element types are unknown; numbers order before strings and the result is text"
  | .rowOrder _ => "result depends on the order rows reach the aggregate; sort upstream"
  | .scalarSet => "uniqueness is exact only for scalar values, which are collected as strings"
  | .setElements _ => "elements are compared and returned as strings"
  | .pairValues => "values are rebuilt as strings"
  | .splitEscapes => "quotes and backslashes inside the input are not JSON-escaped"
  | .captureGroups => "capture groups are not returned"
  | .typeNames => "integers report as 'double' and dates as 'date'"
  | .numericStrings => "numeric strings count as numbers"
  | .sliceBounds => "computed bounds are assumed to be non-negative"
  | .redactLevel => "decided once per document; $$DESCEND keeps the whole document"
  | .bucketIds => "numeric bucket ids are returned as strings next to a string default"
  | .bucketBounds => "bucket bounds are the smallest and largest value in each bucket"
  | .granularity name => s!"granularity '{name}' is ignored"
  | .graphStarts => "the traversal is computed for every start value of the foreign collection"
  | .outAppends => "rows are appended; existing rows are kept"

/-- How far the statement deviates. -/
def capability : Deviation → Capability
  | .secondOperand _ | .captureGroups | .sliceBounds | .redactLevel | .granularity _
  | .outAppends => .partly
  | _ => .emulated

end Deviation

/-- A feature that has no SQL counterpart. -/
inductive Limitation where
  | strict (deviation : Deviation)
  | unboundVariable (name : String)
  | notArrayField (path : String)
  | objectKeys
  | groupOnly (name : String)
  | analyticArray (name : String)
  | filterLimit
  | reduceFold
  | reduceValue
  | regexOption (c : Char)
  | computedArray
  | timezone (name : String)
  | embeddedDocument (path : String)
  | metaSort (what path : String)
  | timeWindow
  | mergeVariables
  | mergePipeline
  | correlatedLookup
  | unwindTarget (path : String)
  | fieldRemoval (stage dialect : String)
  | mergeMatchedFails
  | mergeByField
  | mergeUnmatchedFails
deriving DecidableEq, Repr

namespace Limitation

/-- The operator, stage or form in question. -/
def feature : Limitation → String
  | .strict d => d.feature
  | .unboundVariable name => "$$" ++ name
  | .notArrayField _ => "$eq"
  | .objectKeys => "$objectToArray"
  | .groupOnly name | .analyticArray name | .timezone name => name
  | .filterLimit => "$filter"
  | .reduceFold | .reduceValue => "$reduce"
  | .regexOption _ => "$regex"
  | .computedArray => "array expression"
  | .embeddedDocument _ => "embedded document equality"
  | .metaSort what _ => what
  | .timeWindow => "$setWindowFields"
  | .mergeVariables | .mergePipeline | .mergeMatchedFails | .mergeByField
  | .mergeUnmatchedFails => "$merge"
  | .correlatedLookup => "$lookup"
  | .unwindTarget _ => "$unwind"
  | .fieldRemoval stage _ => stage

/-- Why it is refused. -/
def reason : Limitation → String
  | .strict d => d.message
  | .unboundVariable _ => "variable is not bound in this context"
  | .notArrayField path => s!"'{path}' is not an array field"
  | .objectKeys => "object keys cannot be enumerated in SQL/JSON"
  | .groupOnly _ => "only valid as a $group or window accumulator"
  | .analyticArray _ => "Oracle has no analytic JSON_ARRAYAGG"
  | .filterLimit => "limit must be a positive integer literal"
  | .reduceFold => "only $add and $concat folds over $$value translate to SQL"
  | .reduceValue => "$$value may appear only once, as a direct operand"
  | .regexOption c => s!"option '{c}' has no Oracle equivalent"
  | .computedArray => "array elements must be literal values"
  | .timezone _ => "the timezone option is not supported"
  | .embeddedDocument path => s!"'{path}' is compared against a whole document"
  | .metaSort _ path => s!"'{path}': $meta sort keys are not supported"
  | .timeWindow => "time-unit range windows are not supported"
  | .mergeVariables => "'let' variables are not supported"
  | .mergePipeline => "pipeline whenMatched is not supported"
  | .correlatedLookup => "the let/pipeline form needs a correlated subquery per document"
  | .unwindTarget path => s!"'{path}' does not hold an array at this point"
  | .fieldRemoval _ dialect =>
    s!"removing document fields needs JSON_TRANSFORM, which {dialect} lacks"
  | .mergeMatchedFails => "whenMatched 'fail' has no MERGE equivalent"
  | .mergeByField => "updating documents matched on fields other than _id"
  | .mergeUnmatchedFails => "whenNotMatched 'fail' has no MERGE equivalent"

end Limitation

/-- What a finding of the validator is about. -/
inductive IssueCode where
  | invalidField
  | invalidTable
  | stageOrder
  | emptyPipeline
  | duplicateField
deriving DecidableEq, Repr

/-- The code in a result. -/
def IssueCode.name : IssueCode → String
  | .invalidField => "INVALID_FIELD"
  | .invalidTable => "INVALID_TABLE"
  | .stageOrder => "STAGE_ORDER"
  | .emptyPipeline => "EMPTY_PIPELINE_FIELD"
  | .duplicateField => "DUPLICATE_FIELD"

/-- A finding of the validator. -/
structure Issue where
  code : IssueCode
  message : String
deriving DecidableEq, Repr

/-- The finding on one line. -/
def Issue.describe (i : Issue) : String :=
  s!"[{i.code.name}] {i.message}"

/-- Why a pipeline is refused. -/
inductive Error where
  | structural (fault : Fault)
  | unknownOperator (name : String)
  | unsupported (limitation : Limitation)
  | validation (issues : List Issue)
deriving DecidableEq, Repr

/-- The text of an error. -/
def Error.message : Error → String
  | .structural fault => s!"Structural error: {fault.message}"
  | .unknownOperator name => s!"Unknown operator: {name}"
  | .unsupported limitation =>
    s!"Unsupported feature {limitation.feature}: {limitation.reason}"
  | .validation issues =>
    "Validation failed: " ++ "; ".intercalate (issues.map Issue.describe)

/-- Results of reading and compiling. -/
abbrev Result := Except Error

/-- Refuse with a fault. -/
def fault {α : Type} (f : Fault) : Result α :=
  .error (.structural f)

/-- Refuse with a limitation. -/
def unsupported {α : Type} (l : Limitation) : Result α :=
  .error (.unsupported l)

/-- The first characters of a name as it may be quoted in a message: at most fifty, with control
characters replaced. -/
def abbreviate (name : String) : String :=
  let cs := name.toList
  let isControl (c : Char) : Bool := c.toNat < 32 || 127 ≤ c.toNat && c.toNat < 160
  let shown := (cs.take 50).map fun c => if isControl c then '?' else c
  String.ofList shown ++ (if 50 < cs.length then "..." else "")

/-- Refuse a field name that is not admissible. -/
def checkFieldName (name : String) : Result Unit :=
  if name.isEmpty then .error (.validation [⟨.invalidField, "Field name cannot be empty"⟩])
  else if (Path.ofString name).isFieldName then pure ()
  else
    .error (.validation [⟨.invalidField,
      s!"Invalid field name '{abbreviate name}': segments must start with a letter or underscore, "
        ++ "contain only alphanumerics and underscores, and the path must be at most "
        ++ s!"{maxPathLength} characters"⟩])

/-- Refuse a table name that is not admissible. -/
def checkTableName (name : String) : Result Unit :=
  if isTableName name then pure ()
  else
    .error (.validation [⟨.invalidTable,
      s!"Invalid table name '{abbreviate name}': must start with a letter, contain only "
        ++ "alphanumerics and underscores, and be at most 128 characters"⟩])

end PipelineSql
