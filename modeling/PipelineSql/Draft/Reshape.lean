import PipelineSql.Draft.Basic
import PipelineSql.Stage.Projection

/-!
# Stages on the shape of rows

Stages that keep the rows and change their fields.
-/

namespace PipelineSql.Draft

/-- A column that the query computes. -/
def outputColumn (b : Draft) (name : Path) (value : Expr) : Render Column := do
  let (f, json) ← b.render value.json
  return { name, value := .output f, json }

/-- The expression that a projection selects under a name; none for a dropped field. -/
def projected? (name : Path) : ProjectField → Option Expr
  | .keep => some (.field { path := name })
  | .drop => none
  | .computed e => some e

/-- Is nothing in scope under a path? -/
def isMissing (scope : Scope) (path : Path) : Bool :=
  match scope.resolve path false with
  | .missing => true
  | _ => false

/-- A projection to the listed fields, `_id` first unless it is listed itself. -/
def includeFields (b : Draft) (fields : List (Path × ProjectField)) : Render Draft := do
  let listsId := fields.any fun (name, _) => name = Projection.idPath
  let id := if listsId || isMissing b.scope Projection.idPath then []
    else [(Projection.idPath, .field { path := Projection.idPath })]
  let listed := fields.filterMap fun (name, f) => (projected? name f).map fun e => (name, e)
  let columns ← (id ++ listed).mapM fun (name, e) => b.outputColumn name e
  return b.withScope { columns }

/-- The rows without some fields. -/
def excludeFields (b : Draft) (names : List Path) (stage : String) : Render Draft := do
  if b.scope.isDocument then
    let d := (← read).dialect
    if !d.hasJsonTransform then unsupported (.fieldRemoval stage d.name)
    let removals := names.map fun n => "REMOVE " ++ Fragment.string n.json
    let doc := Fragment.call "JSON_TRANSFORM" (b.scope.documentValue d :: removals)
    return b.withScope { doc := some (.computed doc) }
  else
    let kept := b.scope.entries.filter fun e => !names.any fun n => e.name.isWithin n
    return b.withScope { columns := kept.map fun e => ⟨e.name, .output e.value, e.json⟩ }

/-- `$project` -/
def projectStage (b : Draft) (fields : List (Path × ProjectField)) : Render Draft := do
  let b ← b.reshapeReady
  match Projection.mode fields with
  | .inclusion => b.includeFields fields
  | .exclusion => b.excludeFields (fields.map Prod.fst) "$project"

/-- `$unset` -/
def unsetStage (b : Draft) (names : List Path) : Render Draft := do
  (← b.reshapeReady).excludeFields names "$unset"

/-- `$addFields`: all values are computed from the row as it was. -/
def addFieldsStage (b : Draft) (fields : List (Path × Expr)) : Render Draft := do
  let b ← b.wrapIf (fields.any fun (_, e) => readsComputed b.scope e)
  let added ← fields.mapM fun (name, e) => do
    let (value, json) ← b.render e.json
    return ({ name, value, json } : Computed)
  return b.withScope (added.foldl Scope.compute b.scope)

/-- `$replaceRoot` -/
def replaceRootStage (b : Draft) (root : Expr) : Render Draft := do
  let b ← b.reshapeReady
  let (doc, _) ← b.render root.json
  return b.withScope { doc := some (.computed doc) }

/-- The partition and order of a window. -/
def partition (b : Draft) (spec : WindowFields) : Render Fragment := do
  let subject ← spec.partitionBy.mapM fun e => b.render e.value
  let partition : List Fragment := subject.toList.map fun f => "PARTITION BY " ++ f
  let (terms, _) := orderTerms (← read) b.scope spec.sortBy false
  let order : List Fragment := if terms.isEmpty then []
    else ["ORDER BY " ++ Fragment.commas (terms.map OrderTerm.fragment)]
  return Fragment.joined " " (partition ++ order)

/-- `$setWindowFields` -/
def windowStage (b : Draft) (spec : WindowFields) : Render Draft := do
  let inputs := spec.partitionBy.toList ++ spec.outputs.filterMap fun (_, out) => out.arg
  let pending := inputs.any (readsComputed b.scope)
  let b ← b.wrapIf (b.grouped || b.query.rows.isLimited || pending)
  let partition ← b.partition spec
  let added ← spec.outputs.mapM fun (name, out) => do
    let value ← b.render (out.render partition (!spec.sortBy.isEmpty))
    return ({ name, value, json := false } : Computed)
  return { b.withScope (added.foldl Scope.compute b.scope) with windowed := true }

end PipelineSql.Draft
