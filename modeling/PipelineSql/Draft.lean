import PipelineSql.Draft.Graph
import PipelineSql.Draft.Grouping
import PipelineSql.Draft.Reshape
import PipelineSql.Draft.Write

/-!
# Stages on drafts

Each stage takes a draft to the next. Stages are never rearranged here.
-/

namespace PipelineSql

namespace Draft

/-- The branch of a `$facet` before its stages: the rows of the common input. -/
def facetBranch (cte : String) (input : Scope) (ctes : List Cte) : Render Draft := do
  let label ← Render.newAlias cte
  let scope := input.wrapped label (← read).dataColumn
  return ofSource (.table { table := cte, label := some label, isSubquery := true }) scope ctes

/-- The documents of a branch as one array. -/
def facetEntry (b : Draft) (name : Path) : Render Entry := do
  let query ← b.finish
  let label ← Render.newAlias "q"
  let env ← read
  let doc := (b.scope.wrapped label env.dataColumn).documentValue env.dialect
  let folded : Query :=
    { items := [⟨documentArray env.dialect doc, none⟩], source := some (.subquery query label) }
  return { name, value := Fragment.paren (folded.fragment env.dialect), json := true }

/-- One document with an array for each branch. -/
def ofFacets (entries : List Entry) (ctes : List Cte) : Draft :=
  ofSource .dual { doc := some (.computed (Entry.object entries)) } ctes

/-- The rows of two queries. -/
def union (left right : Query) (ctes : List Cte) : Render Draft := do
  let label ← Render.newAlias "q"
  let query : Query := { compound := some { left, operator := .union, all := true, right } }
  return ofSource (.subquery query label) (.document label (← read).dataColumn) ctes

mutual

/-- The draft after a stage. -/
def stage : Stage → Draft → Render Draft
  | .filter test, b => b.filterStage test
  | .sort keys hint, b => b.sortStage keys hint
  | .limit n, b => pure (b.limitStage n)
  | .skip n, b => pure (b.skipStage n)
  | .sample n, b => b.sampleStage n
  | .lookup spec, b => b.lookupStage spec
  | .lookupPipeline .., _ => unsupported .correlatedLookup
  | .unwind spec, b => b.unwindStage spec
  | .redact decision, b => b.redactStage decision
  | .project fields, b => b.projectStage fields
  | .addFields fields, b => b.addFieldsStage fields
  | .unset fields, b => b.unsetStage fields
  | .replaceRoot root, b => b.replaceRootStage root
  | .group spec, b => b.groupStage spec
  | .count field, b => b.countStage field
  | .bucket spec, b => b.bucketStage spec
  | .bucketAuto spec, b => b.bucketAutoStage spec
  | .windowFields spec, b => b.windowStage spec
  | .graphLookup spec, b => b.graphStage spec
  | .facet facets, b => do
    let name ← Render.newAlias "facet"
    let query ← b.finish
    Render.hoist { name, query }
    let (entries, ctes) ← branches facets name b.scope (b.ctes ++ [{ name, query }])
    return ofFacets entries ctes
  | .unionWith source nested, b => do
    let left ← b.finishDocument
    let other ← ofCollection source (← Render.newAlias source) b.ctes
    let other ← optional nested other
    union left (← other.finishDocument) other.ctes
  | .merge _, _ => fault (.misplaced "$merge")
  | .out _, _ => fault (.misplaced "$out")

/-- The draft after all stages. -/
def stages : List Stage → Draft → Render Draft
  | [], b => pure b
  | s :: rest, b => do
    let b ← Render.inStage (some s.name) (stage s b)
    stages rest b

/-- The draft after stages that may be absent. -/
def optional : Option (List Stage) → Draft → Render Draft
  | none, b => pure b
  | some ss, b => stages ss b

/-- The branches of a `$facet` over its input, and the named subqueries so far. -/
def branches : List (Path × List Stage) → String → Scope → List Cte → Render (List Entry × List Cte)
  | [], _, _, ctes => pure ([], ctes)
  | f :: rest, cte, input, ctes => do
    let (entry, ctes) ← branch f cte input ctes
    let (entries, ctes) ← branches rest cte input ctes
    return (entry :: entries, ctes)

/-- A branch of a `$facet`. -/
def branch : Path × List Stage → String → Scope → List Cte → Render (Entry × List Cte)
  | (name, ss), cte, input, ctes => do
    let b ← stages ss (← facetBranch cte input ctes)
    return (← b.facetEntry name, b.ctes)

end

end Draft

end PipelineSql
