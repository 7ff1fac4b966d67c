import PipelineSql.Proofs.Exports
import PipelineSql.Proofs.RowSteps

/-!
# The number of documents that a lookup found

An equality lookup joins the foreign documents by a key of the row. Their number is not taken from
the join: it is counted in the foreign collection again, by the local key as the row has it where
the count is written. The two keys are the same text as long as no stage from the lookup on gives
the local field another value, be it the lookup itself, under the name of its local field.

Each pending lookup goes back to one stage of the pipeline, whose join is still in the query. A
stage either leaves the pending lookups with their joins, and the paths that it does not bind again
with their meaning, or it makes the query a subquery, where nothing is pending.
-/

namespace PipelineSql

/-- Does a stage that keeps lookups pending give a path another value? -/
def Stage.rebinds (p : Path) : Stage → Bool
  | .lookup spec => p.isWithin spec.asField
  | .graphLookup spec => p.isWithin spec.asField
  | .unwind spec => p.isWithin spec.path || spec.index = some p
  | .addFields fields => fields.any fun f => p.isWithin f.1
  | .windowFields spec => spec.outputs.any fun o => p.isWithin o.1
  | _ => false

/-! ## Bindings that do not cover a path -/

namespace Scope

variable {σ : Scope} {p : Path}

lemma below?_eq_none {n : Path} (h : p.isWithin n = false) : n ≠ p ∧ p.below? n = none := by
  have hne : n ≠ p := by
    rintro rfl
    rw [n.isWithin_self] at h
    cases h
  refine ⟨hne, ?_⟩
  rw [Path.below?_eq hne, h]
  rfl

end Scope

/-! ## Where lookups come from -/

namespace Draft

open Render

variable {env : Env} {b b₁ b' : Draft} {s : Stage} {ss ss' : List Stage} {l : Found}
  {spec : Lookup}

/-- The joins of a draft are kept, and the paths that no stage binds again are read as before. -/
structure Carries (ss : List Stage) (b b' : Draft) : Prop where
  joins : b.query.joins ⊆ b'.query.joins
  resolve : ∀ p, (∀ s ∈ ss, s.rebinds p = false) →
    b'.scope.resolve p false = b.scope.resolve p false

/-- The text of the local key of a lookup in a row. -/
def localKey (env : Env) (row : Scope) (localField : Path) : Fragment :=
  ({ env with scope := row }).fieldValue localField none

/-- The join of an equality lookup by the text of a local key. -/
def lookupJoin (env : Env) (spec : Lookup) (label inner : String) (here : Fragment) : Join where
  kind := .left
  source := .subquery (spec.collected env inner) label
  on := some (.relation .eq (Fragment.column label keyColumn) here)

/-- A pending lookup whose join is in the query. The paths that no stage since then binds again are
read as in the row of the join. -/
def JoinedBy (env : Env) (spec : Lookup) (ss : List Stage) (l : Found) (b : Draft) : Prop :=
  l.asField = spec.asField ∧ l.key = some ⟨spec.source, spec.localField, spec.foreignField⟩ ∧
    ∃ inner row,
      lookupJoin env spec l.source inner (localKey env row spec.localField) ∈ b.query.joins ∧
      ∀ p, (∀ s ∈ ss, s.rebinds p = false) → b.scope.resolve p false = row.resolve p false

/-- Every equality lookup that is pending after some stages was pending before them, or is one of
them. -/
def Traces (env : Env) (ss : List Stage) (b b' : Draft) : Prop :=
  ∀ l ∈ b'.scope.lookups, l.key.isSome = true →
    l ∈ b.scope.lookups ∧ Carries ss b b' ∨
      ∃ pre spec post, ss = pre ++ .lookup spec :: post ∧
        JoinedBy env spec (.lookup spec :: post) l b'

lemma Carries.trans (h : Carries ss b b₁) (h' : Carries ss' b₁ b') :
    Carries (ss ++ ss') b b' where
  joins := List.Subset.trans h.joins h'.joins
  resolve p hp := by
    obtain ⟨hss, hss'⟩ := List.forall_mem_append.1 hp
    rw [h'.resolve p hss', h.resolve p hss]

lemma JoinedBy.carries (h : JoinedBy env spec ss l b) (h' : Carries ss' b b') :
    JoinedBy env spec (ss ++ ss') l b' := by
  obtain ⟨hname, hkey, inner, row, hjoin, hrow⟩ := h
  refine ⟨hname, hkey, inner, row, h'.joins hjoin, fun p hp => ?_⟩
  obtain ⟨hss, hss'⟩ := List.forall_mem_append.1 hp
  rw [h'.resolve p hss', hrow p hss]

/-- One run of stages after another. -/
lemma Traces.trans (h : Traces env ss b b₁) (h' : Traces env ss' b₁ b') :
    Traces env (ss ++ ss') b b' := by
  intro l hl hkey
  rcases h' l hl hkey with ⟨hl₁, hcarries⟩ | ⟨pre, spec, post, rfl, hjoined⟩
  · rcases h l hl₁ hkey with ⟨hl₀, hcarries₀⟩ | ⟨pre, spec, post, rfl, hjoined⟩
    · exact .inl ⟨hl₀, hcarries₀.trans hcarries⟩
    · refine .inr ⟨pre, spec, post ++ ss', by simp, ?_⟩
      exact hjoined.carries hcarries
  · exact .inr ⟨ss ++ pre, spec, post, by simp, hjoined⟩

/-! ## Stages -/

end Draft

/-! ## Counts -/

/-- The number of elements of a field. -/
def elementCount (f : FieldPath) : Expr :=
  .array .size (some (.field f)) none [] none

namespace Draft

/-- The documents of a collection. -/
def orders : Draft :=
  ofSource (.table { table := "orders", label := some "base" }) (.document "base" "data") []

/-- The stock of an item. -/
def stockLookup : Lookup :=
  ⟨"inventory", ⟨["inv"]⟩, ⟨["item"]⟩, ⟨["sku"]⟩⟩

end Draft

end PipelineSql
