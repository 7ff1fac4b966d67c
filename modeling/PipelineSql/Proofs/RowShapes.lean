import Mathlib.Data.List.Nodup
import PipelineSql.Proofs.Exports
import PipelineSql.Proofs.Relation.Pipeline
import PipelineSql.Proofs.RowSteps
import PipelineSql.Proofs.WellFormed.Stage

/-!
# The shapes of rows

The stages alone say what the rows between them are made of: one document, or fields of given names.
A shape describes the row of a draft if it is a document together with it, or has the same names.

Main results: a stage leads from a row that a shape describes to one that the shape after the stage
describes, and so does the way through all stages and the pipelines inside them. A described row is
selected under the names of the shape, each once.
-/

namespace PipelineSql

/-- What rows are made of. -/
inductive RowShape where
  | document
  | fields (names : List Path)
deriving DecidableEq, Repr

namespace RowShape

/-- The fields, where the row is not a document. -/
def names : RowShape → List Path
  | .document => []
  | .fields names => names

/-- Is there anything to read at a path of one segment? -/
def has (name : Path) : RowShape → Bool
  | .document => true
  | .fields names => names.contains name

/-- The row with more fields. A document takes them in. -/
def adding (more : List Path) : RowShape → RowShape
  | .document => .document
  | .fields names => .fields (names ++ more)

/-- The row without some fields and all below them. -/
def removing (gone : List Path) : RowShape → RowShape
  | .document => .document
  | .fields names => .fields (names.filter fun n => !gone.any fun g => n.isWithin g)

/-- The columns under which the row is selected. -/
def columns (data : String) : RowShape → List String
  | .document => [data]
  | .fields names => names.map Path.toString

end RowShape

namespace Stage

/-- The fields of a bucketing. -/
def bucketNames (outputs : List (Path × Expr)) : List Path :=
  Projection.idPath :: if outputs.isEmpty then [⟨["count"]⟩] else outputs.map Prod.fst

/-- The fields that a projection selects from a row. -/
def selectedNames (row : RowShape) (fields : List (Path × ProjectField)) : List Path :=
  (if (fields.any fun f => f.1 = Projection.idPath) || !row.has Projection.idPath then []
    else [Projection.idPath]) ++
  (fields.filter fun f => !Projection.isDrop f.2).map Prod.fst

/-- The shape of the rows after a stage. -/
def shape (row : RowShape) : Stage → RowShape
  | .project fields =>
    match Projection.mode fields with
    | .inclusion => .fields (selectedNames row fields)
    | .exclusion => row.removing (fields.map Prod.fst)
  | .unset names => row.removing names
  | .addFields fields => row.adding (fields.map Prod.fst)
  | .windowFields spec => row.adding (spec.outputs.map Prod.fst)
  | .lookup spec => row.adding [spec.asField]
  | .graphLookup spec => row.adding [spec.asField]
  | .unwind spec => row.adding (spec.path :: spec.index.toList)
  | .group spec => .fields (Projection.idPath :: spec.outputs.map Prod.fst)
  | .bucket spec => .fields (bucketNames spec.outputs)
  | .bucketAuto spec => .fields (bucketNames spec.outputs)
  | .count field => .fields [field]
  | .replaceRoot _ | .facet _ | .unionWith .. => .document
  | _ => row

mutual

/-- The shapes on the way through the pipelines inside a stage, each with the stages to come. -/
def innerPoints (row : RowShape) : Stage → List (RowShape × List Stage)
  | .facet facets => facetPoints row facets
  | .unionWith _ stages => optionPoints stages
  | _ => []
termination_by structural s => s

/-- The shapes on the way through stages, each with the stages to come. -/
def points (row : RowShape) : List Stage → List (RowShape × List Stage)
  | [] => [(row, [])]
  | s :: rest => (row, s :: rest) :: (innerPoints row s ++ points (s.shape row) rest)
termination_by structural ss => ss

/-- A pipeline over the documents of a collection. -/
def optionPoints : Option (List Stage) → List (RowShape × List Stage)
  | none => []
  | some stages => points .document stages
termination_by structural o => o

/-- Pipelines over the same rows. -/
def facetPoints (row : RowShape) : List (Path × List Stage) → List (RowShape × List Stage)
  | [] => []
  | (_, stages) :: rest => points row stages ++ facetPoints row rest
termination_by structural fs => fs

end

lemma self_mem_points (row : RowShape) (stages : List Stage) :
    (row, stages) ∈ points row stages := by
  cases stages <;> simp [points]

lemma points_subset_facetPoints {facets : List (Path × List Stage)} {f : Path × List Stage}
    (hf : f ∈ facets) (row : RowShape) : points row f.2 ⊆ facetPoints row facets := by
  induction facets with
  | nil => cases hf
  | cons g facets ih =>
    rw [facetPoints]
    rcases List.mem_cons.1 hf with rfl | hf
    · exact List.subset_append_left _ _
    · exact List.Subset.trans (ih hf) (List.subset_append_right _ _)

end Stage

/-! ## Admissible names -/

namespace RowShape

/-- Are all fields of the row admissible names? -/
def Named (row : RowShape) : Prop :=
  ∀ n ∈ row.names, n.isFieldName = true

variable {row : RowShape}

lemma named_document : document.Named :=
  List.forall_mem_nil _

lemma Named.adding {more : List Path} (h : row.Named) (hmore : ∀ n ∈ more, n.isFieldName = true) :
    (row.adding more).Named := by
  cases row with
  | document => exact h
  | fields names => exact List.forall_mem_append.2 ⟨h, hmore⟩

lemma Named.removing (h : row.Named) (gone : List Path) : (row.removing gone).Named := by
  cases row with
  | document => exact h
  | fields names => exact fun n hn => h n (List.mem_of_mem_filter hn)

end RowShape

namespace Stage

open RowShape

variable {row : RowShape}

lemma named_bucketNames {outputs : List (Path × Expr)}
    (h : ∀ n ∈ outputs.map Prod.fst, n.isFieldName = true) :
    (RowShape.fields (bucketNames outputs)).Named := by
  refine List.forall_mem_cons.2 ⟨rfl, ?_⟩
  split
  · exact List.forall_mem_singleton.2 rfl
  · exact h

lemma named_selectedNames {fields : List (Path × ProjectField)}
    (h : ∀ n ∈ fields.map Prod.fst, n.isFieldName = true) :
    (RowShape.fields (selectedNames row fields)).Named := by
  refine List.forall_mem_append.2 ⟨?_, fun n hn => ?_⟩
  · split
    · exact List.forall_mem_nil _
    · exact List.forall_mem_singleton.2 rfl
  · obtain ⟨f, hf, rfl⟩ := List.mem_map.1 hn
    exact h _ (List.mem_map_of_mem (List.mem_of_mem_filter hf))

/-- A stage puts only names that it uses itself into the rows. -/
lemma named_shape (h : row.Named) {s : Stage} (hs : ∀ n ∈ s.fieldNames, n.isFieldName = true) :
    (s.shape row).Named := by
  cases s with
  | project fields =>
    rw [shape]
    split
    · exact named_selectedNames hs
    · exact h.removing _
  | unset names => exact h.removing _
  | addFields fields => exact h.adding hs
  | windowFields spec => exact h.adding (List.forall_mem_append.1 hs).2
  | lookup spec => exact h.adding (List.forall_mem_singleton.2 (hs _ List.mem_cons_self))
  | graphLookup spec => exact h.adding (List.forall_mem_singleton.2 (hs _ (by simp [fieldNames])))
  | unwind spec => exact h.adding hs
  | group spec => exact List.forall_mem_cons.2 ⟨rfl, hs⟩
  | bucket spec => exact named_bucketNames hs
  | bucketAuto spec => exact named_bucketNames hs
  | count field => exact hs
  | replaceRoot | facet | unionWith => exact named_document
  | _ => exact h

mutual

lemma named_innerPoints {row : RowShape} (h : row.Named) (s : Stage)
    (hs : ∀ n ∈ s.nodes, ∀ p ∈ n.fieldNames, p.isFieldName = true) :
    ∀ x ∈ innerPoints row s, x.1.Named := by
  cases s with
  | facet facets => exact named_facetPoints h facets (List.forall_mem_cons.1 hs).2
  | unionWith source stages => exact named_optionPoints stages (List.forall_mem_cons.1 hs).2
  | _ => exact List.forall_mem_nil _

/-- All fields on the way through stages of admissible names have such names. -/
lemma named_points {row : RowShape} (h : row.Named) (stages : List Stage)
    (hs : ∀ n ∈ nodesOfList stages, ∀ p ∈ n.fieldNames, p.isFieldName = true) :
    ∀ x ∈ points row stages, x.1.Named := by
  cases stages with
  | nil => exact List.forall_mem_singleton.2 h
  | cons s rest =>
    obtain ⟨hnodes, hrest⟩ := List.forall_mem_append.1 hs
    have hnext := named_shape h (hnodes s s.self_mem_nodes)
    refine List.forall_mem_cons.2 ⟨h, List.forall_mem_append.2 ⟨?_, ?_⟩⟩
    · exact named_innerPoints h s hnodes
    · exact named_points hnext rest hrest

lemma named_optionPoints (stages : Option (List Stage))
    (hs : ∀ n ∈ nodesOfOption stages, ∀ p ∈ n.fieldNames, p.isFieldName = true) :
    ∀ x ∈ optionPoints stages, x.1.Named := by
  cases stages with
  | none => exact List.forall_mem_nil _
  | some stages => exact named_points named_document stages hs

lemma named_facetPoints {row : RowShape} (h : row.Named) (facets : List (Path × List Stage))
    (hs : ∀ n ∈ nodesOfFacets facets, ∀ p ∈ n.fieldNames, p.isFieldName = true) :
    ∀ x ∈ facetPoints row facets, x.1.Named := by
  match facets with
  | [] => exact List.forall_mem_nil _
  | (name, stages) :: rest =>
    obtain ⟨hstages, hrest⟩ := List.forall_mem_append.1 hs
    exact List.forall_mem_append.2
      ⟨named_points h stages hstages, named_facetPoints h rest hrest⟩

end

end Stage

/-! ## Rows of a shape -/

namespace Path

/-- A path of one segment leads to no name but its own, and into none. -/
lemma isWithin_single {n : Path} (hn : n.segments ≠ []) {s : String} :
    (⟨[s]⟩ : Path).isWithin n = true ↔ n = ⟨[s]⟩ := by
  rw [isWithin_iff, List.prefix_cons_iff]
  constructor
  · rintro (h | ⟨rest, h, hrest⟩)
    · exact absurd h hn
    · rw [List.prefix_nil.1 hrest] at h
      exact congrArg Path.mk h
  · rintro rfl
    exact .inr ⟨[], rfl, List.nil_prefix⟩

end Path

namespace Scope

variable {σ : Scope} {k : Path}

/-- The names of the entries, also of those that later ones replace. -/
def names (σ : Scope) : List Path :=
  σ.listed.map Entry.name

lemma names_eq (σ : Scope) : σ.names = σ.columns.map Column.name ++
    (σ.computed.map Computed.name ++ σ.lookups.map Found.asField ++
      σ.unwinds.flatMap fun u => u.path :: u.index.toList) := by
  have hunwound (u : Unwound) : (Entry.ofUnwound u).map Entry.name = u.path :: u.index.toList := by
    unfold Entry.ofUnwound
    cases u.index <;> rfl
  simp only [names, listed, pending, List.map_append, List.map_map, Function.comp_def,
    Entry.name_ofColumn, List.map_flatMap, hunwound]
  rfl

lemma names_columns (columns : List Column) :
    ({ columns } : Scope).names = columns.map Column.name := by
  simp [names_eq]

lemma mem_listed_of_mem_entries {e : Entry} (he : e ∈ σ.entries) : e ∈ σ.listed :=
  List.mem_reverse.1 (List.mem_of_find?_eq_some (Entry.mem_distinct_iff.1 he))

/-- No name is lost with the entries that are replaced. -/
lemma mem_names_entries {p : Path} : p ∈ σ.entries.map Entry.name ↔ p ∈ σ.names := by
  rw [List.mem_map, names, List.mem_map]
  constructor
  · rintro ⟨e, he, rfl⟩
    exact ⟨e, mem_listed_of_mem_entries he, rfl⟩
  · rintro ⟨e, he, rfl⟩
    have hsome : (σ.listed.reverse.find? (·.name = e.name)).isSome :=
      List.find?_isSome.2 ⟨e, List.mem_reverse.2 he, decide_eq_true rfl⟩
    obtain ⟨e', he'⟩ := Option.isSome_iff_exists.1 hsome
    have hname : e'.name = e.name := by simpa using List.find?_some he'
    refine ⟨e', Entry.mem_distinct_iff.2 ?_, hname⟩
    rw [hname]
    exact he'

/-- Each name is left once. -/
lemma nodup_entries (σ : Scope) : (σ.entries.map Entry.name).Nodup := by
  have hdistinct (es : List Entry) : ((Entry.distinct es).map Entry.name).Nodup := by
    induction es using List.reverseRecOn with
    | nil => exact .nil
    | append_singleton es e ih =>
      -- What is put last replaces what had its name.
      rw [Entry.distinct_concat, Entry.put, List.map_append, List.map_singleton]
      refine List.Nodup.append (ih.sublist (List.filter_sublist.map _))
        (List.nodup_singleton _) ?_
      simp +contextual [List.disjoint_singleton]
  exact hdistinct _

lemma names_wrapped (hdoc : σ.isDocument = false) (label data : String) :
    (σ.wrapped label data).names = σ.entries.map Entry.name := by
  rw [wrapped, hdoc, if_neg Bool.false_ne_true, names_columns, List.map_map]
  rfl

lemma mem_names_compute {c : Computed} {p : Path} :
    p ∈ (σ.compute c).names ↔ p ∈ σ.names ∨ p = c.name := by
  have hcomputed : p ∈ (σ.compute c).computed.map Computed.name ↔
      p ∈ σ.computed.map Computed.name ∨ p = c.name := by
    simp only [compute, List.map_append, List.mem_append, List.map_singleton, List.mem_singleton,
      List.mem_map, List.mem_filter, bne_iff_ne]
    grind
  simp only [names_eq, List.mem_append, hcomputed]
  simp only [compute]
  tauto

lemma mem_names_foldl_compute {cs : List Computed} {p : Path} :
    p ∈ (cs.foldl compute σ).names ↔ p ∈ σ.names ∨ p ∈ cs.map Computed.name := by
  induction cs generalizing σ with
  | nil => simp
  | cons c cs ih =>
    rw [List.foldl_cons, ih, mem_names_compute, List.map_cons, List.mem_cons, or_assoc]

lemma readOrigin_eq_nothing_iff :
    σ.readOrigin k = .nothing ↔ σ.isDocument = false ∧ ∀ b ∈ σ.bindings, b.covers k = false := by
  unfold readOrigin
  cases hfind : σ.bindings.reverse.findSome? (·.origin? k) with
  | none =>
    have hnone : ∀ b ∈ σ.bindings, b.covers k = false := by
      intro b hb
      simpa [Binding.origin?] using List.findSome?_eq_none_iff.1 hfind b (List.mem_reverse.2 hb)
    unfold baseOrigin isDocument
    cases σ.doc with
    | none => exact ⟨fun _ => ⟨rfl, hnone⟩, fun _ => rfl⟩
    | some doc => simp
  | some o =>
    obtain ⟨b, hb, ho⟩ := List.exists_of_findSome?_eq_some hfind
    unfold Binding.origin? at ho
    split at ho
    · next hcovers =>
      cases ho
      refine ⟨fun h => by simp [Origin.below] at h, fun h => ?_⟩
      rw [h.2 b (List.mem_reverse.1 hb)] at hcovers
      cases hcovers
    · cases ho

/-- A path is missing exactly if it has no origin. -/
lemma isMissing_iff (hk : k.IsDotted) :
    Draft.isMissing σ k = true ↔
      σ.isDocument = false ∧ ∀ b ∈ σ.bindings, b.covers k = false := by
  rw [← readOrigin_eq_nothing_iff]
  constructor
  · intro h
    have hmissing : σ.resolve k false = .missing := by
      unfold Draft.isMissing at h
      split at h
      · assumption
      · cases h
    cases hread : σ.readOrigin k with
    | nothing => rfl
    | mixed => exact absurd hread (readOrigin_ne_mixed _ _)
    | within f rest =>
      -- Some value has a member at the origin, and what is missing has none.
      have hvalue := value?_resolve hk (fun _ => Json.set rest .null (.obj [])) σ
      rw [hmissing, hread, Origin.value?, Json.at?_set_self] at hvalue
      cases hvalue
  · intro h
    rw [Draft.isMissing, resolve_eq_missing hk h]

lemma mem_names_iff_bindings {p : Path} : p ∈ σ.names ↔ ∃ b ∈ σ.bindings, b.name = p := by
  have hcolumn (c : Column) : (Binding.ofColumn c).name = c.name := by
    unfold Binding.ofColumn
    cases c.value <;> rfl
  have hunwound (u : Unwound) :
      (Binding.ofUnwound u).map Binding.name = u.path :: u.index.toList := by
    unfold Binding.ofUnwound
    cases u.index <;> rfl
  have hnames : σ.bindings.map Binding.name = σ.columns.map Column.name ++
      (σ.unwinds.flatMap fun u => u.path :: u.index.toList) ++
      σ.lookups.map Found.asField ++ σ.computed.map Computed.name := by
    simp only [bindings, List.map_append, List.map_map, Function.comp_def, hcolumn,
      List.map_flatMap, hunwound]
    rfl
  rw [← List.mem_map, hnames, names_eq]
  simp only [List.mem_append]
  tauto

/-- Among names that are not empty, only a path of one segment itself covers it. -/
lemma covers_single_iff (hnames : ∀ n ∈ σ.names, n.segments ≠ []) {s : String} :
    (∀ b ∈ σ.bindings, b.covers ⟨[s]⟩ = false) ↔ ⟨[s]⟩ ∉ σ.names := by
  have hcovers : ∀ b ∈ σ.bindings, (b.covers ⟨[s]⟩ = true ↔ b.name = ⟨[s]⟩) := by
    intro b hb
    unfold Binding.covers
    split
    · exact Path.isWithin_single (hnames _ (mem_names_iff_bindings.2 ⟨b, hb, rfl⟩))
    · exact decide_eq_true_iff
  rw [mem_names_iff_bindings, not_exists]
  refine forall_congr' fun b => ?_
  rw [not_and]
  refine forall_congr' fun hb => ?_
  rw [← hcovers b hb, Bool.not_eq_true]

end Scope

namespace RowShape

/-- The row is a document, or has exactly the fields; nothing else is selected beside it. -/
inductive Describes : RowShape → Scope → Prop where
  | document {σ} : σ.isDocument = true → σ.extras = [] → Describes .document σ
  | fields {names σ} : σ.isDocument = false → σ.extras = [] → (∀ p, p ∈ σ.names ↔ p ∈ names) →
    Describes (.fields names) σ

variable {row : RowShape} {σ σ' : Scope}

lemma describes_doc (doc : DocSource) : Describes .document { doc := some doc } :=
  .document rfl rfl

lemma describes_columns {columns : List Column} {names : List Path}
    (h : columns.map Column.name = names) : Describes (.fields names) { columns } :=
  .fields rfl rfl fun p => by rw [Scope.names_columns, h]

lemma Describes.wrapped (h : row.Describes σ) (label data : String) :
    row.Describes (σ.wrapped label data) := by
  cases h with
  | document hdoc hextras =>
    rw [Scope.wrapped, if_pos hdoc]
    exact describes_doc _
  | fields hdoc hextras hnames =>
    have hwrapped : (σ.wrapped label data).isDocument = false ∧
        (σ.wrapped label data).extras = [] := by
      rw [Scope.wrapped, hdoc]
      exact ⟨rfl, rfl⟩
    refine .fields hwrapped.1 hwrapped.2 fun p => ?_
    rw [Scope.names_wrapped hdoc, Scope.mem_names_entries]
    exact hnames p

/-- More fields beside what the row has. -/
lemma Describes.adding {more : List Path} (h : row.Describes σ)
    (hdoc : σ'.doc = σ.doc) (hextras : σ'.extras = σ.extras)
    (hnames : ∀ p, p ∈ σ'.names ↔ p ∈ σ.names ∨ p ∈ more) : (row.adding more).Describes σ' := by
  have hisdoc : σ'.isDocument = σ.isDocument := by rw [Scope.isDocument, hdoc]; rfl
  cases h with
  | document hd he => exact .document (hisdoc.trans hd) (hextras.trans he)
  | fields hd he hn =>
    refine .fields (hisdoc.trans hd) (hextras.trans he) fun p => ?_
    rw [hnames, hn, List.mem_append]

lemma Describes.computing (h : row.Describes σ) {more : List Path} {cs : List Computed}
    (hcs : cs.map Computed.name = more) :
    (row.adding more).Describes (cs.foldl Scope.compute σ) := by
  have hextras : (cs.foldl Scope.compute σ).extras = σ.extras := by
    clear hcs h
    induction cs generalizing σ with
    | nil => rfl
    | cons c cs ih => exact ih
  refine h.adding (Scope.foldl_compute_eq cs σ).1 hextras fun p => ?_
  rw [Scope.mem_names_foldl_compute, hcs]

lemma Describes.removing (h : row.Describes σ) {d : Dialect} {gone : List Path}
    (hrem : σ.Removes d gone σ') : (row.removing gone).Describes σ' := by
  cases h with
  | document hdoc =>
    cases hrem with
    | document => exact describes_doc _
    | columns hcolumns =>
      rw [hdoc] at hcolumns
      cases hcolumns
  | @fields names _ hdoc hextras hnames =>
    cases hrem with
    | document hdocument =>
      rw [hdoc] at hdocument
      cases hdocument
    | columns =>
      refine .fields rfl rfl fun p => ?_
      rw [Scope.names_columns, List.map_map, List.mem_filter, ← hnames, ← Scope.mem_names_entries]
      simp only [List.mem_map, List.mem_filter, Function.comp_apply]
      grind

lemma Describes.isMissing_eq (h : row.Describes σ) (hnamed : row.Named) :
    Draft.isMissing σ Projection.idPath = !row.has Projection.idPath := by
  have hdotted : Projection.idPath.IsDotted := by decide
  rw [Bool.eq_iff_iff, Scope.isMissing_iff hdotted]
  cases h with
  | document hdoc => simp [hdoc, has]
  | fields hdoc hextras hnames =>
    have hsegments : ∀ n ∈ σ.names, n.segments ≠ [] := fun n hn =>
      Path.segments_ne_nil_of_isFieldName (hnamed n ((hnames n).1 hn))
    rw [Projection.idPath, Scope.covers_single_iff hsegments, hnames]
    simp [hdoc, has]

lemma Describes.selecting (h : row.Describes σ) (hnamed : row.Named)
    (fields : List (Path × ProjectField)) :
    (selectedFields σ fields).map Prod.fst = Stage.selectedNames row fields := by
  rw [selectedFields, Stage.selectedNames, List.map_append, h.isMissing_eq hnamed]
  congr 1
  · split <;> rfl
  · induction fields with
    | nil => rfl
    | cons f fields ih =>
      obtain ⟨name, f⟩ := f
      cases f <;> simpa [Draft.projected?, Projection.isDrop] using ih

end RowShape

/-! ## The way through stages -/

namespace RowShape

variable {row : RowShape} {σ σ' : Scope}

/-- A stage that keeps the order of rows leads to a row of the shape after it. -/
lemma Describes.step {env : Env} {s : Stage} (h : row.Describes σ) (hnamed : row.Named)
    (hstep : σ.Step env s σ') : (s.shape row).Describes σ' := by
  cases hstep with
  | filter | redact | limit | skip => exact h
  | lookup | graphLookup | unwind =>
    -- A binding is added at the end of its kind, in the midst of all names.
    refine h.adding rfl rfl fun p => ?_
    simp only [Scope.names_eq, List.map_append, List.flatMap_append, List.mem_append,
      List.map_singleton, List.flatMap_singleton]
    tauto
  | addFields hadded | windowFields hadded => exact h.computing hadded
  | @keep fields columns hmode hselected =>
    rw [Stage.shape, hmode]
    have hnames := Draft.names_of_forall₂ (hselected.imp fun x c hc => hc.1)
    exact describes_columns (hnames.trans (h.selecting hnamed fields))
  | drop hmode hrem =>
    rw [Stage.shape, hmode]
    exact h.removing hrem
  | unset hrem => exact h.removing hrem
  | replaceRoot => exact describes_doc _

end RowShape

namespace Draft

open Render RowShape

variable {row : RowShape} {b : Draft} {env : Env}

lemma describes_wrapIf (h : row.Describes b.scope) (needed : Bool) :
    (b.wrapIf needed).Yields env fun c => row.Describes c.scope := by
  cases needed with
  | false => exact yields_pure h
  | true =>
    refine (yields_rewrapped b).imp ?_
    rintro _ ⟨label, rfl⟩
    exact h.wrapped label env.dataColumn

lemma yields_accumulatorNames (stage : String) (outputs : List (Path × Expr)) :
    (accumulatorColumns stage outputs).Yields env fun columns =>
      columns.map Column.name = outputs.map Prod.fst := by
  unfold accumulatorColumns
  refine (yields_mapM (R := fun x c => c.name = x.1) ?_).imp fun columns h => names_of_forall₂ h
  rintro ⟨name, e⟩ -
  dsimp only
  split
  · exact yields_then fun r => yields_pure rfl
  · exact yields_fault _

lemma yields_bucketNames (stage : String) (outputs : List (Path × Expr)) :
    (bucketColumns stage outputs).Yields env fun columns =>
      Projection.idPath :: columns.map Column.name = Stage.bucketNames outputs := by
  unfold bucketColumns Stage.bucketNames
  refine yields_ite (fun h => yields_pure ?_) fun h => ?_
  · rw [if_pos h]
    rfl
  · rw [if_neg h]
    exact (yields_accumulatorNames stage outputs).imp fun columns hc => congrArg _ hc

/-- A stage leads from rows of a shape to rows of the shape after it. -/
lemma describes_stage (h : row.Describes b.scope) (hnamed : row.Named) (s : Stage) :
    (stage s b).Yields env fun c => (s.shape row).Describes c.scope := by
  cases hs : s.keepsOrder with
  | true =>
    refine (grows_stage hs b).imp ?_
    -- A subquery exports the names of its row, so it does not matter if the query was wrapped.
    rintro c (hgrows | ⟨label, hgrows⟩)
    · exact h.step hnamed hgrows.row
    · exact (h.wrapped label env.dataColumn).step hnamed hgrows.row
  | false =>
    cases s with
    | sort keys hint =>
      rw [stage]
      refine yields_bind (describes_wrapIf h _) fun c hc => yields_then fun env' => ?_
      exact yields_pure hc
    | sample n =>
      rw [stage]
      exact yields_bind (describes_wrapIf h _) fun c hc => yields_pure hc
    | group spec =>
      rw [stage]
      refine yields_then fun c => yields_then fun key => ?_
      refine yields_bind (yields_within (yields_accumulatorNames _ _)) fun columns hc => ?_
      exact yields_pure (describes_columns (congrArg _ hc))
    | count field =>
      rw [stage]
      exact yields_then fun c => yields_pure (describes_columns rfl)
    | bucket spec =>
      rw [stage]
      refine yields_then fun c => yields_warn_if (yields_then fun key => ?_)
      refine yields_bind (yields_within (yields_bucketNames _ _)) fun columns hc => ?_
      exact yields_pure (describes_columns hc)
    | bucketAuto spec =>
      rw [stage]
      refine yields_then fun _ => yields_then fun _ => yields_then fun c => ?_
      refine yields_then fun subject => yields_then fun outer => ?_
      refine yields_bind (yields_within (yields_bucketNames _ _)) fun columns hc => ?_
      exact yields_pure (describes_columns hc)
    | facet facets =>
      rw [stage]
      refine yields_then fun name => yields_then fun query => yields_then fun _ => ?_
      exact yields_then fun entries => yields_pure (describes_doc _)
    | unionWith source nested =>
      refine (yields_unionStage b source nested).imp ?_
      rintro _ ⟨_, _, _, _, rfl⟩
      exact describes_doc _
    | lookupPipeline => rw [stage]; exact yields_unsupported _
    | merge spec => rw [stage]; exact yields_fault _
    | out spec => rw [stage]; exact yields_fault _
    | _ => cases hs

lemma describes_ofCollection (collection label : String) (ctes : List Cte) :
    (ofCollection collection label ctes).Yields env fun b => document.Describes b.scope :=
  yields_then fun _ => yields_pure (describes_doc _)

lemma describes_facetBranch (h : row.Describes σ) (cte : String) (ctes : List Cte) :
    (facetBranch cte σ ctes).Yields env fun b => row.Describes b.scope :=
  yields_then fun _ => yields_read (yields_pure (h.wrapped _ _))

/-- The draft after all stages has rows of the shape after all of them. -/
lemma describes_stages {stages : List Stage} (h : row.Describes b.scope)
    (hnamed : ∀ x ∈ Stage.points row stages, x.1.Named) :
    (Draft.stages stages b).Yields env fun c =>
      (stages.foldl Stage.shape row).Describes c.scope := by
  induction stages generalizing row b env with
  | nil =>
    rw [Draft.stages]
    exact yields_pure h
  | cons s rest ih =>
    rw [Stage.points] at hnamed
    obtain ⟨hrow, hrest⟩ := List.forall_mem_cons.1 hnamed
    rw [Draft.stages]
    have hstage : (Render.inStage (some s.name) (stage s b)).Yields env fun c =>
        (s.shape row).Describes c.scope := describes_stage h hrow s
    exact yields_bind hstage fun c hc => ih hc (List.forall_mem_append.1 hrest).2

/-- Drafts and shapes go the same way. -/
lemma Next.describes {data : String} {ss ss' : List Stage} {c : Draft}
    (hnext : Next data (ss, b) (ss', c)) (h : row.Describes b.scope) (hnamed : row.Named) :
    ∃ row', row'.Describes c.scope ∧ Stage.points row' ss' ⊆ Stage.points row ss := by
  generalize hx : (ss, b) = x, hy : (ss', c) = y at hnext
  cases hnext with
  | @stage s rest _ _ env e e' hdata hrun =>
    cases hx
    cases hy
    refine ⟨s.shape row, describes_stage h hnamed s hrun, fun y hy => ?_⟩
    rw [Stage.points]
    exact List.mem_cons_of_mem _ (List.mem_append_right _ hy)
  | @facet facets rest _ f cte ctes _ env e e' hf hdata hrun =>
    cases hx
    cases hy
    refine ⟨row, describes_facetBranch h cte ctes hrun, fun y hy => ?_⟩
    rw [Stage.points, Stage.innerPoints]
    exact List.mem_cons_of_mem _
      (List.mem_append_left _ (Stage.points_subset_facetPoints hf row hy))
  | @union source nested rest _ label ctes _ env e e' hdata hrun =>
    cases hx
    cases hy
    refine ⟨document, describes_ofCollection source label ctes hrun, fun y hy => ?_⟩
    rw [Stage.points, Stage.innerPoints, Stage.optionPoints]
    exact List.mem_cons_of_mem _ (List.mem_append_left _ hy)

/-- Every draft on the way has rows of a shape on the way. -/
lemma describes_of_next {data : String} {ss : List Stage} {p : List Stage × Draft}
    (hp : Relation.ReflTransGen (Next data) (ss, b) p) (h : row.Describes b.scope)
    (hnamed : ∀ x ∈ Stage.points row ss, x.1.Named) :
    ∃ row', row'.Describes p.2.scope ∧ (row', p.1) ∈ Stage.points row ss := by
  suffices hsub : ∃ row', row'.Describes p.2.scope ∧
      Stage.points row' p.1 ⊆ Stage.points row ss by
    obtain ⟨row', hrow', hsub⟩ := hsub
    exact ⟨row', hrow', hsub (Stage.self_mem_points row' p.1)⟩
  -- All points after a draft are points of the start, so its own shape has admissible names.
  induction hp with
  | refl => exact ⟨row, h, List.Subset.refl _⟩
  | @tail q p _ hnext ih =>
    obtain ⟨row', hrow', hsub⟩ := ih
    have hnamed' := hnamed _ (hsub (Stage.self_mem_points row' q.1))
    obtain ⟨row'', hrow'', hsub'⟩ := Next.describes hnext hrow' hnamed'
    exact ⟨row'', hrow'', List.Subset.trans hsub' hsub⟩

end Draft

/-! ## Select lists -/

namespace Scope

variable {σ : Scope}

/-- An entry is selected under its name. -/
lemma column_entryItem {e : Entry} (he : e ∈ σ.entries) :
    (entryItem e).column? = some e.name.toString := by
  have he := mem_listed_of_mem_entries he
  simp only [listed, pending, List.mem_append, List.mem_map, List.mem_flatMap] at he
  rcases he with ⟨c, -, rfl⟩ | (⟨c, -, rfl⟩ | ⟨l, -, rfl⟩) | ⟨u, -, he⟩
  · unfold Entry.ofColumn
    cases c.value <;> rfl
  · rfl
  · rfl
  · unfold Entry.ofUnwound at he
    cases hi : u.index with
    | none =>
      rw [hi] at he
      obtain rfl := List.mem_singleton.1 he
      rfl
    | some i =>
      rw [hi] at he
      rcases List.mem_cons.1 he with rfl | he
      · rfl
      · obtain rfl := List.mem_singleton.1 he
        rfl

/-- Without a document the entries are selected. -/
lemma columns_entries (hdoc : σ.isDocument = false) (d : Dialect) (data : String) :
    (σ.selectItems d data).map SelectItem.column? =
      ((σ.entries.map Entry.name).map Path.toString).map some ++
        σ.extras.map SelectItem.column? := by
  have hnone : σ.doc = none := by simpa [isDocument] using hdoc
  rw [selectItems, hnone, List.map_append, List.map_map, List.map_map, List.map_map]
  congr 1
  exact List.map_congr_left fun e he => column_entryItem he

end Scope

namespace RowShape

variable {row : RowShape} {σ : Scope}

/-- The columns are those of the row, each once, in some order. -/
structure Lists (row : RowShape) (data : String) (columns : List (Option String)) : Prop where
  nodup : columns.Nodup
  mem_iff : ∀ c, c ∈ columns ↔ c ∈ (row.columns data).map some

lemma Describes.lists (h : row.Describes σ) (hnamed : row.Named) (d : Dialect) (data : String) :
    row.Lists data ((σ.selectItems d data).map SelectItem.column?) := by
  cases h with
  | document hdoc hextras =>
    obtain ⟨doc, hdoc⟩ := Option.isSome_iff_exists.1 hdoc
    rw [FragmentLogic.columns_document hdoc, hextras]
    exact ⟨List.nodup_singleton _, fun c => Iff.rfl⟩
  | @fields names _ hdoc hextras hnames =>
    have hentries : ∀ n ∈ σ.entries.map Entry.name, n.isFieldName = true :=
      fun n hn => hnamed n ((hnames n).1 (Scope.mem_names_entries.1 hn))
    rw [Scope.columns_entries hdoc, hextras, List.map_nil, List.append_nil]
    constructor
    · refine (σ.nodup_entries.map_on fun p hp q hq hpq => ?_).map fun _ _ => Option.some.inj
      exact Path.toString_inj_of_isFieldName (hentries p hp) (hentries q hq) hpq
    · simp only [columns, List.mem_map, ← hnames, ← Scope.mem_names_entries, implies_true]

lemma Lists.eq_nil_iff {data : String} {columns : List (Option String)}
    (h : row.Lists data columns) : columns = [] ↔ row = .fields [] := by
  have hrow : row.columns data = [] ↔ row = .fields [] := by
    cases row <;> simp [RowShape.columns]
  rw [← hrow, List.eq_nil_iff_forall_not_mem, List.eq_nil_iff_forall_not_mem]
  simp only [h.mem_iff]
  simp

end RowShape

end PipelineSql
