import PipelineSql.Expr.Fields
import PipelineSql.Stage.Basic
import Mathlib.Tactic.Common

/-!
# Stages and expressions at any depth

A pipeline has stages inside its stages, and expressions inside its expressions. What is said of all
of a pipeline is said of each node on its own: of a stage without the pipelines inside it, and of an
expression without its arguments.
-/

namespace PipelineSql

namespace Expr

/-- The arguments of the operator of a node. -/
def parts : Expr → List Expr
  | .compare _ left right => [left, right]
  | .logic _ es | .arith _ es | .text _ es | .object _ es | .ifNull es => es
  | .array _ input index args _ => input.toList ++ index.toList ++ args
  | .date _ e => [e]
  | .cond test yes no => [test, yes, no]
  | .switch branches default => branches.flatMap (fun b => [b.1, b.2]) ++ default.toList
  | .accumulate _ arg => arg.toList
  | .compoundId fields | .document fields => fields.map Prod.snd
  | .convert _ e _ onError onNull => e :: (onError.toList ++ onNull.toList)
  | _ => []

lemma nodesOfList_eq (es : List Expr) : nodesOfList es = es.flatMap nodes := by
  induction es with
  | nil => rfl
  | cons e es ih => rw [nodesOfList, ih, List.flatMap_cons]

lemma nodesOfOption_eq (o : Option Expr) : nodesOfOption o = o.toList.flatMap nodes := by
  cases o <;> simp [nodesOfOption]

lemma nodesOfPairs_eq (bs : List (Expr × Expr)) :
    nodesOfPairs bs = (bs.flatMap fun b => [b.1, b.2]).flatMap nodes := by
  induction bs with
  | nil => rfl
  | cons b bs ih => simp [nodesOfPairs, ih]

lemma nodesOfFields_eq (fields : List (String × Expr)) :
    nodesOfFields fields = (fields.map Prod.snd).flatMap nodes := by
  induction fields with
  | nil => rfl
  | cons f fields ih => rw [nodesOfFields, ih, List.map_cons, List.flatMap_cons]

lemma nodes_eq (e : Expr) : e.nodes = e :: e.parts.flatMap nodes := by
  cases e <;>
    simp [nodes, parts, nodesOfList_eq, nodesOfOption_eq, nodesOfPairs_eq, nodesOfFields_eq]

/-- What holds of all nodes holds of the first and of all nodes of its arguments. -/
lemma forall_nodes {P : Expr → Prop} {e : Expr} :
    (∀ n ∈ e.nodes, P n) ↔ P e ∧ ∀ part ∈ e.parts, ∀ n ∈ part.nodes, P n := by
  rw [nodes_eq, List.forall_mem_cons, List.forall_mem_flatMap]

/-- The collection whose documents a node counts. -/
def table? : Expr → Option String
  | .lookupSize source _ _ => some source
  | _ => none

/-- The type that a field is declared to have. -/
def declared? : Expr → Option JsonType
  | .field f => f.type
  | _ => none

/-- The collections whose documents an expression counts. -/
def tables (e : Expr) : List String :=
  e.nodes.filterMap table?

end Expr

namespace Stage

mutual

/-- A stage and all stages of the pipelines inside it, each stage before those inside it. -/
def nodes : Stage → List Stage
  | s@(.lookupPipeline _ _ _ stages) => s :: nodesOfList stages
  | s@(.facet facets) => s :: nodesOfFacets facets
  | s@(.unionWith _ stages) => s :: nodesOfOption stages
  | s => [s]

/-- The stages of a pipeline, those inside others included. -/
def nodesOfList : List Stage → List Stage
  | [] => []
  | s :: rest => nodes s ++ nodesOfList rest

/-- The stages of a pipeline that may be absent. -/
def nodesOfOption : Option (List Stage) → List Stage
  | none => []
  | some stages => nodesOfList stages

/-- The stages of named pipelines. -/
def nodesOfFacets : List (Path × List Stage) → List Stage
  | [] => []
  | (_, stages) :: rest => nodesOfList stages ++ nodesOfFacets rest

end

/-- The stages of the pipelines right inside a stage. -/
def inner : Stage → List Stage
  | .lookupPipeline _ _ _ stages => stages
  | .facet facets => facets.flatMap Prod.snd
  | .unionWith _ stages => stages.getD []
  | _ => []

lemma nodesOfList_eq (stages : List Stage) : nodesOfList stages = stages.flatMap nodes := by
  induction stages with
  | nil => rfl
  | cons s stages ih => rw [nodesOfList, ih, List.flatMap_cons]

lemma nodesOfOption_eq (o : Option (List Stage)) :
    nodesOfOption o = (o.getD []).flatMap nodes := by
  cases o <;> simp [nodesOfOption, nodesOfList_eq]

lemma nodesOfFacets_eq (facets : List (Path × List Stage)) :
    nodesOfFacets facets = (facets.flatMap Prod.snd).flatMap nodes := by
  induction facets with
  | nil => rfl
  | cons f facets ih => simp [nodesOfFacets, nodesOfList_eq, ih]

lemma nodes_eq (s : Stage) : s.nodes = s :: s.inner.flatMap nodes := by
  cases s <;> simp [nodes, inner, nodesOfList_eq, nodesOfOption_eq, nodesOfFacets_eq]

lemma self_mem_nodes (s : Stage) : s ∈ s.nodes := by
  rw [nodes_eq]
  exact List.mem_cons_self

/-- What holds of all nodes holds of the first and of all nodes inside it. -/
lemma forall_nodes {P : Stage → Prop} {s : Stage} :
    (∀ n ∈ s.nodes, P n) ↔ P s ∧ ∀ t ∈ s.inner, ∀ n ∈ t.nodes, P n := by
  rw [nodes_eq, List.forall_mem_cons, List.forall_mem_flatMap]

/-- The tables that the stage itself names, outside its expressions. -/
def tables : Stage → List String
  | .lookup l => [l.source]
  | .lookupPipeline source _ _ _ => [source]
  | .graphLookup g => [g.source]
  | .unionWith source _ => [source]
  | .merge m => [m.table]
  | .out o => [o.table]
  | _ => []

/-- The accumulators of a grouping. -/
def outputs : Stage → List (Path × Expr)
  | .group g => g.outputs
  | .bucket b => b.outputs
  | .bucketAuto b => b.outputs
  | _ => []

/-- The expressions of a stage that are not accumulators of a grouping. -/
def values : Stage → List Expr
  | .filter e | .replaceRoot e | .redact e => [e]
  | .project fields => fields.filterMap fun f =>
    match f.2 with
    | .computed e => some e
    | _ => none
  | .addFields fields => fields.map Prod.snd
  | .group g => g.id.toList
  | .lookupPipeline _ _ vars _ => vars.map Prod.snd
  | .bucket b => [b.groupBy]
  | .bucketAuto b => [b.groupBy]
  | .graphLookup g => g.startWith :: g.restrict.toList
  | .windowFields w => w.partitionBy.toList ++ w.outputs.filterMap fun o => o.2.arg
  | _ => []

/-- The collections that the stage itself names, in its expressions too. -/
def collections (s : Stage) : List String :=
  s.tables ++ (s.values ++ s.outputs.map Prod.snd).flatMap Expr.tables

end Stage

end PipelineSql
