import Mathlib.Tactic.Lemma
import PipelineSql.Compile
import PipelineSql.Settings

/-!
# Pipelines that name their source

A pipeline that names the collection it reads has no use for the collection of the target. That one
is checked all the same, before anything else.

Main result: all admissible collections give the same result, and every other one is refused, the
empty one too, although settings may leave the collection out.
-/

namespace PipelineSql

namespace Target

/-- The target with another collection to read. -/
def reading (t : Target) (collection : String) : Target :=
  { t with collection }

/-- The collection of the target is checked first. -/
lemma check_reading (t : Target) (c : String) :
    (t.reading c).check = (do checkTableName c; t.schema.forM checkTableName
                              checkColumn t.dataColumn; checkColumn t.idColumn) :=
  rfl

end Target

namespace Pipeline

variable {p : Pipeline} {source : String}

lemma collection_eq (h : p.source = some source) (t : Target) : p.collection t = source := by
  rw [collection, h]
  rfl

/-- The statement of a pipeline with a source is the same over every collection. -/
lemma statement_reading (h : p.source = some source) (t : Target) (c c' : String) :
    p.statement (t.reading c) = p.statement (t.reading c') := by
  unfold statement
  rw [collection_eq h, collection_eq h]
  rfl

lemma compilation_reading (h : p.source = some source) (t : Target) (o : Options) (c c' : String) :
    p.compilation (t.reading c) o = p.compilation (t.reading c') o := by
  unfold compilation
  rw [statement_reading h t c c']
  rfl

end Pipeline

open Pipeline

/-- The collection of the target is checked, and it has no other effect. -/
lemma translate_reading {p : Pipeline} {source : String} (h : p.source = some source) (t : Target)
    (o : Options) {c c' : String} (hc : isTableName c' = true) :
    translate p (t.reading c) o = (do checkTableName c; translate p (t.reading c') o) := by
  have hcheck : (t.reading c).check = (do checkTableName c; (t.reading c').check) := by
    rw [t.check_reading c, t.check_reading c', show checkTableName c' = pure () from if_pos hc]
    rfl
  have hq : ∀ q : Pipeline, q.source = some source →
      q.compilation (t.reading c) o = q.compilation (t.reading c') o :=
    fun q hq => compilation_reading hq t o c c'
  -- After the check, the collection is asked for only where there is no source.
  unfold translate admitted
  rw [hcheck, collection_eq h, collection_eq h]
  simp only [bind_assoc]
  congr 1
  funext _
  congr 1
  funext _
  split
  · rfl
  · simp only [pure_bind]
    rw [hq _ (by split <;> exact h)]

lemma compile_reading {p : Pipeline} {source : String} (h : p.source = some source) (t : Target)
    (o : Options) {c c' : String} (hc : isTableName c' = true) :
    compile p (t.reading c) o = (do checkTableName c; compile p (t.reading c') o) := by
  unfold compile
  rw [translate_reading h t o hc, bind_assoc]

/-- A pipeline that names its source compiles alike over all admissible collections, to the same
text, values and warnings or to the same error. A collection that is not admissible is refused by
its name, whatever the stages are. The empty collection is one of these, although settings that
leave the collection out pass their own check. -/
theorem own_source_decides {p : Pipeline} (hp : p.source.isSome = true) (t : Target) (o : Options)
    (c : String) :
    (isTableName c = true → ∀ c', isTableName c' = true →
      compile p (t.reading c) o = compile p (t.reading c') o) ∧
    (isTableName c = false → compile p (t.reading c) o = .error (.validation [⟨.invalidTable,
      s!"Invalid table name '{abbreviate c}': must start with a letter, contain only " ++
        "alphanumerics and underscores, and be at most 128 characters"⟩])) ∧
    isTableName "" = false ∧ (⟨t.reading "", o⟩ : Settings).check = .ok () := by
  obtain ⟨source, hsource⟩ := Option.isSome_iff_exists.1 hp
  refine ⟨fun hc c' hc' => ?_, fun hc => ?_, rfl, rfl⟩
  · rw [compile_reading hsource t o hc', show checkTableName c = pure () from if_pos hc, pure_bind]
  · have hadmissible : isTableName "c" = true := by decide
    have hrefused := compile_reading hsource t o (c := c) hadmissible
    rw [hrefused, checkTableName, hc]
    rfl

/-- The documents of a collection that the pipeline names. -/
def readsArchive : Pipeline where
  source := some "archive"
  stages := [.limit 5]

theorem readsArchive_over_collections :
    readsArchive.source.isSome = true ∧ isTableName "orders" = true ∧ isTableName "staff" = true ∧
    isTableName "9" = false ∧
    compile readsArchive (Target.reading {} "orders") {} =
      compile readsArchive (Target.reading {} "staff") {} ∧
    compile readsArchive (Target.reading {} "9") {} = .error (.validation [⟨.invalidTable,
      "Invalid table name '9': must start with a letter, contain only " ++
        "alphanumerics and underscores, and be at most 128 characters"⟩]) :=
  ⟨rfl, by decide, by decide, by decide,
    (own_source_decides rfl {} {} "orders").1 (by decide) "staff" (by decide),
    (own_source_decides rfl {} {} "9").2.1 (by decide)⟩

/-- The pipeline can be compiled over a collection that it does not read, but over none it is
refused. -/
theorem readsArchive_refused_without_collection :
    (compile readsArchive (Target.reading {} "orders") {}).isOk = true ∧
    (compile readsArchive (Target.reading {} "") {}).isOk = false := by
  decide +kernel

end PipelineSql
