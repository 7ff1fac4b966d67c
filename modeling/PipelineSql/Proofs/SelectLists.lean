import PipelineSql.Proofs.Relation.Alike
import PipelineSql.Proofs.RowShapes
import PipelineSql.Proofs.Scoping
import PipelineSql.Proofs.WritePlacement

/-!
# Select lists

Every query of a statement selects a row, a row with columns beside it, or one of a few fixed lists.
So the select lists of a statement are known from the shapes of the rows on the way through the
stages.

Main results: the lists are not empty if no row on the way is without fields, and the outermost list
is empty exactly if the last row is. The columns of each list are distinct if no row has a field
that is called like a column to be selected beside it, and those of the outermost list always are.
-/

namespace PipelineSql

/-- The columns of the select lists of a fragment, at any depth; none for one without a name. -/
def Fragment.selectLists (f : Fragment) : List (List (Option String)) :=
  f.brackets.filterMap fun b => b.1.selected?

/-- The columns of the select lists of a statement. -/
def Statement.selectLists (s : Statement) (d : Dialect) : List (List (Option String)) :=
  (s.fragment d).selectLists

/-- The columns that the next stage selects beside the row. -/
def Stage.besides : List Stage → List String
  | .bucketAuto _ :: _ => ["bucket", "bucket_key"]
  | _ => []

namespace Fragment

lemma selectLists_append (f g : Fragment) :
    (f ++ g).selectLists = f.selectLists ++ g.selectLists := by
  simp only [selectLists, brackets, Piece.allBrackets_append, List.filterMap_append]

lemma selectLists_group (b : Bracket) (f : Fragment) :
    selectLists [.group b f] = b.selected?.toList ++ f.selectLists := by
  have hbrackets : brackets [.group b f] = (b, f) :: f.brackets := List.append_nil _
  rw [selectLists, hbrackets, List.filterMap_cons]
  cases b.selected? <;> rfl

end Fragment

/-- The fixed lists are not empty. -/
lemma Stage.lists_ne_nil (s : Stage) (data : String) : ∀ columns ∈ s.lists data, columns ≠ [] := by
  cases s <;> simp [Stage.lists]

open Fragment

/-- Fragments are related if they are the same, and all their select lists have a property. -/
def FragmentLogic.listing (P : List (Option String) → Prop) : FragmentLogic where
  Rel _ f g := f = g ∧ ∀ columns ∈ f.selectLists, P columns
  Stored _ := True
  Speaks d d' := d = d'
  Lists := P
  features h := .of_eq h
  mono _ h := h
  nil := ⟨rfl, List.forall_mem_nil _⟩
  append := by
    rintro _ f _ g _ ⟨rfl, hf⟩ ⟨rfl, hg⟩
    rw [selectLists_append]
    exact ⟨rfl, List.forall_mem_append.2 ⟨hf, hg⟩⟩
  plain _ := ⟨rfl, List.forall_mem_nil _⟩
  text _ _ := ⟨rfl, List.forall_mem_nil _⟩
  said _ _ := ⟨rfl, List.forall_mem_nil _⟩
  column _ := ⟨rfl, List.forall_mem_nil _⟩
  table _ := ⟨rfl, List.forall_mem_nil _⟩
  group := by
    rintro _ b f _ - - hb ⟨rfl, hf⟩
    rw [selectLists_group]
    exact ⟨rfl, List.forall_mem_append.2 ⟨fun c hc => hb c (Option.mem_toList.1 hc), hf⟩⟩
  name := by
    rintro _ _ _ _ ⟨rfl, -⟩ -
    exact Iff.rfl

lemma FragmentLogic.naming_listing (P : List (Option String) → Prop) : (listing P).Naming := by
  rintro _ subqueries f _ - ⟨rfl, hf⟩
  refine ⟨rfl, ?_⟩
  rw [selectLists_group]
  exact hf

lemma FragmentLogic.windowing_listing (P : List (Option String) → Prop) : (listing P).Windowing :=
  fun _ => ⟨rfl, List.forall_mem_nil _⟩

/-- Are all names in the stage admissible, at any depth? -/
def Stage.Named (s : Stage) : Prop :=
  ∀ n ∈ s.nodes, ∀ p ∈ n.fieldNames, p.isFieldName = true

lemma Merge.statement_ne_query (m : Merge) (t : Target) (source main : Query) :
    m.statement t source ≠ .ok (.query main) := by
  intro h
  unfold Merge.statement at h
  cases hmatched : m.whenMatched t with
  | error x =>
    rw [hmatched] at h
    cases h
  | ok matched =>
    cases hunmatched : m.whenUnmatched t with
    | error x =>
      rw [hmatched, hunmatched] at h
      cases h
    | ok unmatched =>
      rw [hmatched, hunmatched] at h
      simp only [bind, Except.bind] at h
      split at h <;> cases h

namespace Pipeline

open Render Stage

variable {p : Pipeline} {t : Target} {o : Options} {s : Statement} {e : Emission}

/-- The shapes on the way through a pipeline, each with the stages to come. -/
def points (p : Pipeline) : List (RowShape × List Stage) :=
  Stage.points .document (splitTerminal p.stages).1

/-- The shape of the rows after all stages. -/
def lastShape (p : Pipeline) : RowShape :=
  p.stages.foldl Stage.shape .document

/-- The passes use no other names. -/
lemma kept_named : Kept Stage.Named :=
  Kept.nodes ⟨fun _ _ _ _ => List.forall_mem_nil _, fun _ => List.forall_mem_nil _,
    fun _ => List.forall_mem_nil _, fun _ _ _ h => h⟩

lemma named_of_parsePipeline {j : Json} {q : Pipeline} (hp : parsePipeline j = .ok p.stages)
    (hq : admitted p t o = .ok q) : ∀ s ∈ q.stages, s.Named := by
  have hwf := (Phrase.throughout_ofJson Phrase.inherited_spells j).self.pipeline.value hp
  exact kept_named.admitted (fun s hs n hn => (hwf s hs n hn).names) hq

lemma named_points (h : ∀ s ∈ p.stages, s.Named) : ∀ x ∈ p.points, x.1.Named := by
  refine Stage.named_points RowShape.named_document _ fun n hn => ?_
  rw [nodesOfList_eq] at hn
  obtain ⟨s, hs, hn⟩ := List.mem_flatMap.1 hn
  exact h s ((splitTerminal_sublist p.stages).subset hs) n hn

/-- What is true of the fixed lists, and of the columns of every row on the way, is true of all
select lists of the statement. -/
lemma forall_selectLists {P : List (Option String) → Prop} (hs : p.compilation t o = .ok s e)
    (hnamed : ∀ s ∈ p.stages, s.Named)
    (hfixed : ∀ n ∈ nodesOfList p.stages, ∀ columns ∈ n.lists t.dataColumn, P columns)
    (hrows : ∀ x ∈ p.points, ∀ columns, x.1.Lists t.dataColumn columns →
      P columns ∧ P (columns ++ (besides x.2).map some)) (d : Dialect) :
    ∀ columns ∈ s.selectLists d, P columns := by
  have hextracts := FragmentLogic.extracts_all (L := .listing P) (d := .oracle26ai) rfl rfl
  have hrel := statementRel_compilation (L := .listing P) (fun _ _ => ⟨rfl, List.forall_mem_nil _⟩)
    hs rfl (fun _ => trivial) (FragmentLogic.windowing_listing P) (fun _ => trivial)
    (fun _ _ _ _ _ _ => hextracts _) hfixed ?_
  · exact (hrel.layout (FragmentLogic.naming_listing P) d).2
  · intro env e₀ b e₁ hdata hrun q hq
    obtain ⟨row, hrow, hmem⟩ := Draft.describes_of_next hq
      (Draft.describes_ofCollection _ _ _ hrun) (named_points hnamed)
    have hnamed' := named_points hnamed _ hmem
    constructor
    · exact fun d => (hrows _ hmem _ (hrow.lists hnamed' d _)).1
    · -- The rows are numbered as they are, or in the query around them.
      rintro spec rest hbucket σ hσ d
      have hnumbers := hrows _ hmem
      rw [hbucket] at hnumbers
      rcases hσ with rfl | ⟨label, rfl⟩
      · exact (hnumbers _ (hrow.lists hnamed' d _)).2
      · exact (hnumbers _ ((hrow.wrapped label _).lists hnamed' d _)).2

lemma lastShape_mem_points (row : RowShape) (stages : List Stage) :
    (stages.foldl Stage.shape row, []) ∈ Stage.points row stages := by
  induction stages generalizing row with
  | nil => exact List.mem_singleton_self _
  | cons s rest ih =>
    rw [Stage.points]
    exact List.mem_cons_of_mem _ (List.mem_append_right _ (ih _))

/-- A statement that does not write selects the row after all stages. -/
lemma yields_lastRow (hnamed : ∀ s ∈ p.stages, s.Named) {env : Env} :
    (p.statement t).Yields env fun s => ∀ main, s = .query main →
      ∃ σ, p.lastShape.Describes σ ∧ p.lastShape.Named ∧
        main.items = σ.selectItems env.dialect env.dataColumn := by
  unfold statement
  have hpoints := named_points hnamed
  obtain ⟨init, w, hw, -, hsplit⟩ | ⟨-, hsplit⟩ := splitTerminal_cases p.stages
  · -- A statement that writes is no query.
    rw [hsplit]
    refine yields_then fun base => yields_then fun b => ?_
    cases w with
    | out spec => exact yields_then fun _ => yields_then fun q => yields_pure fun _ h => nomatch h
    | merge spec =>
      refine yields_then fun q => yields_lift fun s hs main hmain => ?_
      rw [hmain] at hs
      exact absurd hs (spec.statement_ne_query t q main)
    | _ => cases hw
  · rw [points, hsplit] at hpoints
    rw [hsplit]
    refine yields_bind (Draft.describes_ofCollection _ _ _) fun base hbase => ?_
    refine yields_bind (Draft.describes_stages hbase hpoints) fun b hb => ?_
    unfold finish Draft.finish
    rw [bind_assoc]
    refine yields_read (yields_pure ?_)
    rintro _ ⟨⟩
    have hlast := hpoints _ (lastShape_mem_points .document p.stages)
    exact ⟨b.scope, hb, hlast, rfl⟩

lemma lists_main (hs : p.compilation t o = .ok s e) (hnamed : ∀ s ∈ p.stages, s.Named)
    {main : Query} (hmain : s = .query main) :
    p.lastShape.Lists t.dataColumn (main.items.map SelectItem.column?) := by
  rw [compilation_eq_run] at hs
  obtain ⟨σ, hσ, hlast, hitems⟩ := yields_lastRow hnamed hs main hmain
  rw [hitems]
  exact hσ.lists hlast o.dialect t.dataColumn

end Pipeline

/-! ## Lists that are not empty -/

/-- The statement of a pipeline that is read has no empty select list, if no row on the way through
the stages that are compiled is without fields. Without a stage that writes, the outermost list is
empty exactly if all fields are gone at the end. -/
theorem select_lists_nonempty {j : Json} {p q : Pipeline} {t : Target} {o : Options} {s : Statement}
    {e : Emission} (hp : parsePipeline j = .ok p.stages) (hq : admitted p t o = .ok q)
    (hs : q.compilation t o = .ok s e) :
    ((∀ x ∈ q.points, x.1 ≠ .fields []) → ∀ columns ∈ s.selectLists o.dialect, columns ≠ []) ∧
      ∀ main, s = .query main → (main.items = [] ↔ q.lastShape = .fields []) := by
  have hnamed := Pipeline.named_of_parsePipeline hp hq
  constructor
  · intro hrows
    refine Pipeline.forall_selectLists hs hnamed (fun n _ => ?_) (fun x hx columns hcolumns => ?_) _
    · exact n.lists_ne_nil _
    · have hne : columns ≠ [] := fun h => hrows x hx (hcolumns.eq_nil_iff.1 h)
      exact ⟨hne, fun h => hne (List.append_eq_nil_iff.1 h).1⟩
  · intro main hmain
    rw [← List.map_eq_nil_iff, (Pipeline.lists_main hs hnamed hmain).eq_nil_iff]

/-- The total and the number of documents of each region, the best three of them in a facet. -/
def bestRegionsJson : Json :=
  .arr [
    .obj [("$group", .obj [("_id", .str "$region"),
      ("total", .obj [("$sum", .str "$amount")]), ("n", .obj [("$sum", .num (.int 1))])])],
    .obj [("$unset", .str "n")],
    .obj [("$facet", .obj [("best", .arr [.obj [("$sort", .obj [("total", .num (.int (-1)))])],
      .obj [("$limit", .num (.int 3))]])])]]

def bestRegions : Pipeline :=
  { stages := [
      .group { id := some (.field { path := ⟨["region"]⟩ }), outputs := [
        (⟨["total"]⟩, .accumulate .sum (some (.field { path := ⟨["amount"]⟩ }))),
        (⟨["n"]⟩, .accumulate .sum (some (.lit (.int 1))))] },
      .unset [⟨["n"]⟩],
      .facet [(⟨["best"]⟩, [.sort [⟨⟨["total"]⟩, .descending⟩] none, .limit 3])]] }

theorem bestRegions_lists_nonempty :
    parsePipeline bestRegionsJson = .ok bestRegions.stages ∧ ∃ s e,
      bestRegions.optimize.compilation { collection := "orders" } {} = .ok s e ∧
      (s.selectLists .oracle26ai).length = 5 ∧
      ∀ columns ∈ s.selectLists .oracle26ai, columns ≠ [] := by
  have hparse : parsePipeline bestRegionsJson = .ok bestRegions.stages := rfl
  have hadmitted : admitted bestRegions { collection := "orders" } {} = .ok bestRegions.optimize :=
    rfl
  obtain ⟨s, e, hs, hlength⟩ := Pipeline.exists_of_yields (p := bestRegions.optimize)
    (t := { collection := "orders" }) (o := {})
    (P := fun s => (s.selectLists .oracle26ai).length = 5) (by decide +kernel)
  refine ⟨hparse, s, e, hs, hlength, (select_lists_nonempty hparse hadmitted hs).1 ?_⟩
  decide +kernel

/-- A count without its only field. -/
def lostCountJson : Json :=
  .arr [.obj [("$count", .str "n")], .obj [("$unset", .str "n")]]

def lostCount : Pipeline :=
  { stages := [.count ⟨["n"]⟩, .unset [⟨["n"]⟩]] }

theorem lostCount_selects_nothing :
    parsePipeline lostCountJson = .ok lostCount.stages ∧
    admitted lostCount { collection := "orders" } {} = .ok lostCount.optimize ∧
    ∃ s e, lostCount.optimize.compilation { collection := "orders" } {} = .ok s e ∧
      [] ∈ s.selectLists .oracle26ai :=
  ⟨rfl, rfl, Pipeline.exists_of_yields (P := fun s => [] ∈ s.selectLists .oracle26ai)
    (by decide +kernel)⟩

/-! ## Columns that are distinct -/

lemma nodup_filterMap_id {columns : List (Option String)} (h : columns.Nodup) :
    (columns.filterMap id).Nodup :=
  h.filterMap fun _ _ _ ha hb => ha.trans hb.symm

/-- The columns of the fixed lists are distinct, but for documents of a recursive lookup that are
stored under the name of its start. -/
lemma Stage.lists_distinct {s : Stage} {data : String}
    (h : data = GraphLookup.startColumn → ∀ g, s ≠ .graphLookup g) :
    ∀ columns ∈ s.lists data, (columns.filterMap id).Nodup := by
  cases s with
  | graphLookup g =>
    have hstart : GraphLookup.startColumn ≠ data := fun hd => h hd.symm g rfl
    have hnames : [GraphLookup.startColumn, data].Nodup := by simpa using hstart
    refine List.forall_mem_cons.2 ⟨List.nodup_singleton data, List.forall_mem_cons.2 ⟨hnames, ?_⟩⟩
    decide
  | lookup => exact List.forall_mem_singleton.2 (by decide)
  | facet => exact List.forall_mem_singleton.2 .nil
  | unionWith | merge | out => exact List.forall_mem_singleton.2 (List.nodup_singleton data)
  | _ => exact List.forall_mem_nil _

/-- In each select list of the statement of a pipeline that is read, the columns are distinct, if no
row on the way has a field that is called like the number or the key of a bucket where these are
selected beside it, and no recursive lookup keeps its documents under the name of its start. Without
a stage that writes, the outermost list has just the fields of the last row, each once. -/
theorem select_lists_distinct {j : Json} {p q : Pipeline} {t : Target} {o : Options} {s : Statement}
    {e : Emission} (hp : parsePipeline j = .ok p.stages) (hq : admitted p t o = .ok q)
    (hs : q.compilation t o = .ok s e) :
    ((∀ x ∈ q.points, ∀ name ∈ Stage.besides x.2, name ∉ x.1.columns t.dataColumn) →
      (t.dataColumn = GraphLookup.startColumn →
        ∀ n ∈ Stage.nodesOfList q.stages, ∀ g, n ≠ .graphLookup g) →
      ∀ columns ∈ s.selectLists o.dialect, (columns.filterMap id).Nodup) ∧
      ∀ main, s = .query main →
        q.lastShape.Lists t.dataColumn (main.items.map SelectItem.column?) := by
  have hnamed := Pipeline.named_of_parsePipeline hp hq
  refine ⟨fun hbesides hgraph => ?_, fun main => Pipeline.lists_main hs hnamed⟩
  refine Pipeline.forall_selectLists hs hnamed (fun n hn => ?_) (fun x hx columns hcolumns => ?_) _
  · exact Stage.lists_distinct fun hdata => hgraph hdata n hn
  · refine ⟨nodup_filterMap_id hcolumns.nodup, nodup_filterMap_id ?_⟩
    have hown : ((Stage.besides x.2).map some).Nodup := by
      fun_cases Stage.besides x.2 <;> simp
    -- A name in both lists would be a column of the row that clashes.
    refine hcolumns.nodup.append hown fun c hc hbeside => ?_
    obtain ⟨name, hname, rfl⟩ := List.mem_map.1 hbeside
    obtain ⟨_, hcolumn, ⟨⟩⟩ := List.mem_map.1 ((hcolumns.mem_iff _).1 hc)
    exact hbesides x hx name hname hcolumn

/-- Two buckets by a field. -/
def bucketsByJson (field : String) : Json :=
  .arr [.obj [("$project", .obj [(field, .num (.int 1))])],
    .obj [("$bucketAuto", .obj [("groupBy", .str ("$" ++ field)), ("buckets", .num (.int 2))])]]

def bucketsBy (field : String) : Pipeline :=
  { stages := [.project [(⟨[field]⟩, .keep)],
      .bucketAuto
        { groupBy := .field { path := ⟨[field]⟩ }
          buckets := 2
          outputs := []
          granularity := none }] }

theorem bucketsBy_total_distinct :
    parsePipeline (bucketsByJson "total") = .ok (bucketsBy "total").stages ∧ ∃ s e,
      (bucketsBy "total").optimize.compilation { collection := "orders" } {} = .ok s e ∧
      [some "_id", some "total", some "bucket", some "bucket_key"] ∈ s.selectLists .oracle26ai ∧
      ∀ columns ∈ s.selectLists .oracle26ai, (columns.filterMap id).Nodup := by
  have hparse : parsePipeline (bucketsByJson "total") = .ok (bucketsBy "total").stages := rfl
  have hadmitted : admitted (bucketsBy "total") { collection := "orders" } {} =
      .ok (bucketsBy "total").optimize := rfl
  obtain ⟨s, e, hs, hlist⟩ := Pipeline.exists_of_yields (p := (bucketsBy "total").optimize)
    (t := { collection := "orders" }) (o := {})
    (P := fun s => [some "_id", some "total", some "bucket", some "bucket_key"] ∈
      s.selectLists .oracle26ai) (by decide +kernel)
  refine ⟨hparse, s, e, hs, hlist, (select_lists_distinct hparse hadmitted hs).1 ?_ ?_⟩
  · decide +kernel
  · exact fun h => absurd h (by decide)

/-- A field that is called like the number of its bucket is selected beside it. -/
theorem bucketsBy_bucket_clashes :
    parsePipeline (bucketsByJson "bucket") = .ok (bucketsBy "bucket").stages ∧
    admitted (bucketsBy "bucket") { collection := "orders" } {} =
      .ok (bucketsBy "bucket").optimize ∧
    ∃ s e, (bucketsBy "bucket").optimize.compilation { collection := "orders" } {} = .ok s e ∧
      ∃ columns ∈ s.selectLists .oracle26ai, ¬ (columns.filterMap id).Nodup :=
  ⟨rfl, rfl, Pipeline.exists_of_yields
    (P := fun s => ∃ columns ∈ s.selectLists .oracle26ai, ¬ (columns.filterMap id).Nodup)
    (by decide +kernel)⟩

end PipelineSql
