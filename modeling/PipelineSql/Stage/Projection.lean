import PipelineSql.Stage.Basic

/-!
# Projections

A projection that keeps or computes any field keeps only what it lists, and `_id`; one that only
drops fields keeps the rest.
-/

namespace PipelineSql.Projection

/-- The document's key, which an inclusion keeps without being asked. -/
def idPath : Path := ⟨["_id"]⟩

/-- Does the entry take a field out? -/
def isDrop : ProjectField → Bool
  | .drop => true
  | _ => false

/-- Is any field kept or computed? -/
def hasInclusion (fields : List (Path × ProjectField)) : Bool :=
  fields.any fun (_, f) => !isDrop f

/-- Is any field but `_id` dropped? -/
def hasExclusion (fields : List (Path × ProjectField)) : Bool :=
  fields.any fun (name, f) => isDrop f && name != idPath

/-- How the projection treats the fields that it does not list. -/
def mode (fields : List (Path × ProjectField)) : ProjectionMode :=
  if hasInclusion fields then .inclusion else .exclusion

/-- Does the entry `name` let what is at and below it through unchanged? -/
def isIdentity (name : Path) : ProjectField → Bool
  | .keep => true
  | .drop => false
  | .computed e => e.field?.any fun f => f.path = name

/-- Does a path pass through unchanged under its own name? -/
def preserves (fields : List (Path × ProjectField)) (path : Path) : Bool :=
  match mode fields with
  | .exclusion => !fields.any fun (name, _) => path.isWithin name
  | .inclusion =>
    if path.root = "_id" && !fields.any (fun (name, _) => name = idPath) then true
    else fields.any fun (name, f) => path.isWithin name && isIdentity name f

/-- Refuse an empty projection, an inadmissible name, and a mix of kept and dropped fields. -/
def check (fields : List (Path × ProjectField)) : Result Unit := do
  if fields.isEmpty then fault .emptyProjection
  fields.forM fun (name, _) => checkFieldName name.toString
  if hasExclusion fields && hasInclusion fields then fault .mixedProjection

end PipelineSql.Projection
