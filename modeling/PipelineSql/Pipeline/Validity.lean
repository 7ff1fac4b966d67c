import PipelineSql.Stage.Basic

/-!
# Validity of a pipeline

Every issue is reported, each with its place. Stages that write come last and only in the outermost
pipeline, no facet is empty, and no stage names a field twice.
-/

namespace PipelineSql

namespace Validity

/-- Stages with their positions from `n` on. -/
def numbered (n : Nat) : List Stage → List (Nat × Stage)
  | [] => []
  | s :: rest => (n, s) :: numbered (n + 1) rest

/-- Writing stages that are not last. -/
def orderIssues (place : String) (stages : List Stage) : List Issue :=
  (numbered 0 stages).filterMap fun (i, s) =>
    if s.isTerminal && i + 1 != stages.length then
      some ⟨.stageOrder, s!"{place}: {s.name} must be the last stage (found at position {i})"⟩
    else none

/-- Writing stages in a nested pipeline. -/
def nestedIssues (place : String) (stages : List Stage) : List Issue :=
  (stages.filter Stage.isTerminal).map fun s =>
    ⟨.stageOrder, s!"{place}: {s.name} is not allowed in a sub-pipeline"⟩

/-- Names that occurred before, in order; `seen` holds those so far. -/
def repeated (seen : List Path) : List Path → List Path
  | [] => []
  | p :: rest => if seen.contains p then p :: repeated seen rest else repeated (p :: seen) rest

/-- Fields that are named twice. -/
def duplicateIssues (place : String) (names : List Path) : List Issue :=
  (repeated [] names).map fun p => ⟨.duplicateField, s!"{place}: duplicate field '{p}'"⟩

/-- A facet without stages. -/
def emptyIssues (place : String) (name : Path) (stages : List Stage) : List Issue :=
  if stages.isEmpty then
    [⟨.emptyPipeline, s!"{place}: facet '{name}' has an empty pipeline"⟩]
  else []

mutual

/-- The issues of one stage. -/
def stageIssues (here : String) : Stage → List Issue
  | .facet facets => facetIssues here facets
  | .unionWith _ stages => optionIssues here stages
  | .lookupPipeline _ _ _ stages =>
    nestedIssues here stages ++ orderIssues here stages ++ eachIssues here 0 stages
  | .group g => duplicateIssues here (g.outputs.map Prod.fst)
  | .addFields fields => duplicateIssues here (fields.map Prod.fst)
  | .project fields => duplicateIssues here (fields.map Prod.fst)
  | _ => []

/-- The issues of each of several stages, the first of which has position `n`. -/
def eachIssues (place : String) (n : Nat) : List Stage → List Issue
  | [] => []
  | s :: rest => stageIssues s!"{place} stage {n} ({s.name})" s ++ eachIssues place (n + 1) rest

/-- The issues of a nested pipeline that may be absent. -/
def optionIssues (here : String) : Option (List Stage) → List Issue
  | none => []
  | some stages => nestedIssues here stages ++ orderIssues here stages ++ eachIssues here 0 stages

/-- The issues of facets. -/
def facetIssues (here : String) : List (Path × List Stage) → List Issue
  | [] => []
  | (name, stages) :: rest =>
    emptyIssues here name stages ++ orderIssues s!"{here} facet '{name}'" stages ++
      eachIssues s!"{here} facet '{name}'" 0 stages ++ facetIssues here rest

end

/-- The issues of stages in order. -/
def stagesIssues (place : String) (stages : List Stage) : List Issue :=
  orderIssues place stages ++ eachIssues place 0 stages

end Validity

/-- The issues of stages over a collection. -/
def validate (collection : String) (stages : List Stage) : List Issue :=
  let name := if isTableName collection then []
    else [⟨.invalidTable, s!"Invalid collection name '{abbreviate collection}'"⟩]
  name ++ Validity.stagesIssues "pipeline" stages

end PipelineSql
