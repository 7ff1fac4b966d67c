import Mathlib.Algebra.Group.Int.Defs
import Mathlib.Algebra.Group.Nat.Defs
import PipelineSql.Proofs.WellFormed.Grammar

/-!
# Well-formed stages

A stage is well formed if, in it and in all stages inside it, every expression is well formed,
accumulators are the outputs of groupings and nothing else, every name is admissible, every count is
a positive 64-bit number, and facets hold only stages that may stand there. The grammar reads no
other stages, and none that declare types of fields.
-/

namespace PipelineSql

open Result

/-- Does the window function have its argument and its offset, if it needs them? -/
def WindowOutput.isComplete (w : WindowOutput) : Bool :=
  (w.arg.isSome || w.op.isRanking || w.op == .count) && (w.shift.isSome || w.op != .shift)

namespace Stage

/-- The window functions of a stage. -/
def windows : Stage → List WindowOutput
  | .windowFields w => w.outputs.map Prod.snd
  | _ => []

/-- The fields that the stage itself names, outside its expressions. -/
def fieldNames : Stage → List Path
  | .project fields => fields.map Prod.fst
  | .addFields fields => fields.map Prod.fst
  | .group g => g.outputs.map Prod.fst
  | .sort keys _ => keys.map SortKey.path
  | .lookup l => [l.asField, l.localField, l.foreignField]
  | .lookupPipeline _ asField _ _ => [asField]
  | .unwind u => u.path :: u.index.toList
  | .unset fields => fields
  | .count field => [field]
  | .bucket b => b.outputs.map Prod.fst
  | .bucketAuto b => b.outputs.map Prod.fst
  | .facet facets => facets.map Prod.fst
  | .graphLookup g => g.connectFrom :: g.connectTo :: g.asField :: g.depthField.toList
  | .windowFields w => w.sortBy.map SortKey.path ++ w.outputs.map Prod.fst
  | .merge m => m.on
  | _ => []

/-- The schema of the table that is written. -/
def schema? : Stage → Option String
  | .merge m => m.schema
  | .out o => o.schema
  | _ => none

/-- How many documents or buckets the stage asks for. -/
def counts : Stage → List Nat
  | .limit n | .skip n | .sample n => [n]
  | .bucketAuto b => [b.buckets]
  | _ => []

/-- The stages of the facets. -/
def facetStages : Stage → List Stage
  | .facet facets => facets.flatMap Prod.snd
  | _ => []

/-- A stage that is well formed by itself. -/
structure NodeWellFormed (s : Stage) : Prop where
  values : ∀ e ∈ s.values, e.WellFormed
  outputs : ∀ o ∈ s.outputs, o.2.IsAccumulation
  windows : ∀ w ∈ s.windows, w.isComplete = true
  names : ∀ p ∈ s.fieldNames, p.isFieldName = true
  tables : ∀ t ∈ s.tables ++ s.schema?.toList, isTableName t = true
  counts : ∀ n ∈ s.counts, 0 < n ∧ n < 2 ^ 63
  facets : ∀ t ∈ s.facetStages, t.isFacetable = true

/-- The stage and all stages inside it are well formed. -/
def WellFormed (s : Stage) : Prop :=
  ∀ n ∈ s.nodes, n.NodeWellFormed

/-- A stage is well formed if it is so by itself and its inner stages are. -/
lemma wellFormed_iff {s : Stage} :
    s.WellFormed ↔ s.NodeWellFormed ∧ ∀ t ∈ s.inner, t.WellFormed :=
  forall_nodes

/-- A well-formed stage whose expressions declare no types. -/
structure NodeParsed (s : Stage) : Prop extends NodeWellFormed s where
  undeclared : ∀ e ∈ s.values ++ s.outputs.map Prod.snd, ∀ n ∈ e.nodes, n.declared? = none

/-- What is asked of a stage by itself, part by part. -/
lemma NodeParsed.of {s : Stage} (values : ∀ e ∈ s.values, e.Parsed)
    (outputs : ∀ o ∈ s.outputs, o.2.ParsedAccumulation)
    (windows : ∀ w ∈ s.windows, w.isComplete = true)
    (names : ∀ p ∈ s.fieldNames, p.isFieldName = true)
    (tables : ∀ t ∈ s.tables ++ s.schema?.toList, isTableName t = true)
    (counts : ∀ n ∈ s.counts, 0 < n ∧ n < 2 ^ 63)
    (facets : ∀ t ∈ s.facetStages, t.isFacetable = true) : s.NodeParsed where
  values e he := (values e he).wellFormed
  outputs o ho := (outputs o ho).isAccumulation
  windows
  names
  tables
  counts
  facets
  undeclared := List.forall_mem_append.2 ⟨fun e he => (values e he).undeclared,
    List.forall_mem_map.2 fun o ho => (outputs o ho).undeclared⟩

/-- What is read as a stage: it is well formed and declares no types, at any depth. -/
def Parsed (s : Stage) : Prop :=
  ∀ n ∈ s.nodes, n.NodeParsed

/-- What is parsed is well formed. -/
lemma Parsed.wellFormed {s : Stage} (h : s.Parsed) : s.WellFormed :=
  fun n hn => (h n hn).toNodeWellFormed

/-- A stage is parsed if it is so by itself and its inner stages are. -/
lemma parsed_iff {s : Stage} :
    s.Parsed ↔ s.NodeParsed ∧ ∀ t ∈ s.inner, t.Parsed :=
  forall_nodes

/-- A stage without stages inside it. -/
lemma NodeParsed.leaf {s : Stage} (h : s.NodeParsed) (hs : s.inner = []) :
    s.Parsed := by
  refine parsed_iff.2 ⟨h, ?_⟩
  rw [hs]
  exact List.forall_mem_nil _

end Stage

/-! ## Names and counts -/

lemma ensures_fieldName (name : String) :
    Ensures (fieldName name) fun p => p.isFieldName = true :=
  ensures_bind (ensures_checkFieldName name) fun _ h => ensures_pure h

lemma ensures_fieldPath (text : String) :
    Ensures (fieldPath text) fun p => p.isFieldName = true :=
  ensures_bind (ensures_fieldOfString text) fun _ h => ensures_pure h.1

/-- A positive number stays in its bounds. -/
lemma ensures_positive {n : Int} (what : String) (hn : n < 2 ^ 63) :
    Ensures (positive what n) fun n => 0 < n ∧ n < 2 ^ 63 := by
  unfold positive
  split
  · refine ensures_pure ?_
    omega
  · exact ensures_error rfl

/-- A number that is read as an integer has 64 bits. -/
lemma lt_of_toIntegral? {n : Number} {i : Int} (h : n.toIntegral? = some i) : i < 2 ^ 63 := by
  have hbound : (int64Bound : Int) = 2 ^ 63 := rfl
  unfold Number.toIntegral? at h
  split at h
  · rename_i j hj
    cases h
    unfold Number.toInt64? at hj
    split at hj
    · split at hj
      · rename_i hrange
        cases hj
        simp only [isInt64, Bool.and_eq_true, decide_eq_true_eq] at hrange
        omega
      · cases hj
    · cases hj
  · simp only [Option.bind_eq_bind, Option.bind_eq_some_iff] at h
    obtain ⟨_, -, _, -, h⟩ := h
    split at h
    · cases h
      omega
    · cases h

/-- An integer that is read has 64 bits. -/
lemma ensures_integer (p : Phrase) (what : String) :
    Ensures (p.integer what) fun n => n < 2 ^ 63 := by
  unfold Phrase.integer
  split
  · split
    · exact ensures_pure (lt_of_toIntegral? ‹_›)
    · exact ensures_error rfl
  · exact ensures_error rfl

/-! ## Building -/

/-- Outputs of a grouping that are accumulators of admissible names. -/
def OutputsParsed (outputs : List (Path × Expr)) : Prop :=
  ∀ o ∈ outputs, o.1.Spelled ∧ o.2.ParsedAccumulation

/-- The check of outputs ensures that their names are field names. -/
lemma ensures_checkOutputs {outputs : List (Path × Expr)} (stage : String)
    (h : OutputsParsed outputs) :
    Ensures (checkOutputs stage outputs) fun _ =>
      ∀ p ∈ outputs.map Prod.fst, p.isFieldName = true := by
  refine (ensures_forM fun o ho => ?_).imp fun _ => List.forall_mem_map.2
  exact ensures_bind (h o ho).1.ensures_check fun _ hname =>
    ensures_ite (ensures_error rfl) (ensures_pure hname)

namespace Stage

/-- Stages of one expression. -/
lemma parsed_value {e : Expr} (h : e.Parsed) :
    (filter e).Parsed ∧ (replaceRoot e).Parsed ∧ (redact e).Parsed := by
  refine ⟨NodeParsed.leaf ?_ rfl, NodeParsed.leaf ?_ rfl, NodeParsed.leaf ?_ rfl⟩
  all_goals
    apply NodeParsed.of
    case values => exact List.forall_mem_singleton.2 h
    all_goals exact List.forall_mem_nil _

/-- Stages of one number. -/
lemma parsed_count {n : Nat} (h : 0 < n ∧ n < 2 ^ 63) :
    (limit n).Parsed ∧ (skip n).Parsed ∧ (sample n).Parsed := by
  refine ⟨NodeParsed.leaf ?_ rfl, NodeParsed.leaf ?_ rfl, NodeParsed.leaf ?_ rfl⟩
  all_goals
    apply NodeParsed.of
    case counts => exact List.forall_mem_singleton.2 h
    all_goals exact List.forall_mem_nil _

/-- A limit is positive. -/
lemma ensures_ofLimit {n : Int} (h : n < 2 ^ 63) : Ensures (ofLimit n) Parsed :=
  ensures_bind (ensures_positive _ h) fun _ hn => ensures_pure (parsed_count hn).1

/-- A skip is positive. -/
lemma ensures_ofSkip {n : Int} (h : n < 2 ^ 63) : Ensures (ofSkip n) Parsed :=
  ensures_bind (ensures_positive _ h) fun _ hn => ensures_pure (parsed_count hn).2.1

/-- A sample is positive. -/
lemma ensures_ofSample {n : Int} (h : n < 2 ^ 63) : Ensures (ofSample n) Parsed :=
  ensures_bind (ensures_positive _ h) fun _ hn => ensures_pure (parsed_count hn).2.2

/-- A count names its field. -/
lemma ensures_ofCount (field : String) : Ensures (ofCount field) Parsed := by
  unfold ofCount
  dsimp only
  refine ensures_ite (ensures_error rfl) (ensures_bind (ensures_fieldName field) fun p hp => ?_)
  refine ensures_pure (NodeParsed.leaf ?_ rfl)
  apply NodeParsed.of
  case names => exact List.forall_mem_singleton.2 hp
  all_goals exact List.forall_mem_nil _

/-- Only fields are unset. -/
lemma ensures_ofUnset (names : List String) : Ensures (ofUnset names) Parsed := by
  unfold ofUnset
  refine ensures_ite (ensures_error rfl) ?_
  refine ensures_bind (ensures_mapM fun name _ => ensures_fieldName name) fun ps hps => ?_
  refine ensures_pure (NodeParsed.leaf ?_ rfl)
  apply NodeParsed.of
  case names => exact hps
  all_goals exact List.forall_mem_nil _

/-- A sort has keys. -/
lemma ensures_ofSort {keys : List SortKey} (h : ∀ k ∈ keys, k.path.isFieldName = true) :
    Ensures (ofSort keys) Parsed := by
  refine ensures_ite (ensures_error rfl) (ensures_pure (NodeParsed.leaf ?_ rfl))
  apply NodeParsed.of
  case names => exact List.forall_mem_map.2 h
  all_goals exact List.forall_mem_nil _

/-- Added fields have names. -/
lemma ensures_ofFields {fields : List (Path × Expr)}
    (h : ∀ f ∈ fields, f.1.Spelled ∧ f.2.Parsed) : Ensures (ofFields fields) Parsed := by
  unfold ofFields
  refine ensures_ite (ensures_error rfl) ?_
  refine ensures_bind (ensures_forM fun f hf => (h f hf).1.ensures_check) fun _ hnames => ?_
  refine ensures_pure (NodeParsed.leaf ?_ rfl)
  apply NodeParsed.of
  case values => exact List.forall_mem_map.2 fun f hf => (h f hf).2
  case names => exact List.forall_mem_map.2 hnames
  all_goals exact List.forall_mem_nil _

/-- A projection of admissible names, with the expressions that it computes. -/
lemma ensures_project {fields : List (Path × ProjectField)} (hn : ∀ f ∈ fields, f.1.Spelled)
    (h : ∀ e ∈ (project fields).values, e.Parsed) :
    Ensures (do Projection.check fields; return project fields) Parsed := by
  have hcheck : Ensures (Projection.check fields) fun _ =>
      ∀ f ∈ fields, f.1.isFieldName = true := by
    unfold Projection.check
    refine ensures_ite (ensures_error rfl) ?_
    exact ensures_bind (ensures_forM fun f hf => (hn f hf).ensures_check) fun _ hnames =>
      ensures_ite (ensures_error rfl) (ensures_pure hnames)
  refine ensures_bind hcheck fun _ hnames => ensures_pure (NodeParsed.leaf ?_ rfl)
  apply NodeParsed.of
  case values => exact h
  case names => exact List.forall_mem_map.2 hnames
  all_goals exact List.forall_mem_nil _

/-- A group is built from what is parsed. -/
lemma ensures_group {id : Option Expr} {outputs : List (Path × Expr)}
    (hid : ∀ e ∈ id, e.Parsed) (h : OutputsParsed outputs) :
    Ensures (do return group (← Group.build id outputs)) Parsed := by
  have hbuild : Ensures (Group.build id outputs) fun g =>
      g.id = id ∧ g.outputs = outputs ∧ ∀ o ∈ outputs, o.1.isFieldName = true := by
    refine ensures_bind (ensures_forM fun o ho => ?_) fun _ hn => ensures_pure ⟨rfl, rfl, hn⟩
    exact ensures_bind (h o ho).1.ensures_check fun _ hname =>
      ensures_ite (ensures_error rfl) (ensures_ite (ensures_error rfl) (ensures_pure hname))
  refine ensures_bind hbuild ?_
  rintro ⟨_, _⟩ ⟨rfl, rfl, hn⟩
  refine ensures_pure (NodeParsed.leaf ?_ rfl)
  apply NodeParsed.of
  case values => exact fun e he => hid e (Option.mem_toList.1 he)
  case outputs => exact fun o ho => (h o ho).2
  case names => exact List.forall_mem_map.2 hn
  all_goals exact List.forall_mem_nil _

/-- Buckets are built from what is parsed. -/
lemma ensures_bucket {groupBy : Expr} {boundaries : List Literal} {default : Option Literal}
    {outputs : List (Path × Expr)} (hg : groupBy.Parsed) (h : OutputsParsed outputs) :
    Ensures (do return bucket (← Bucket.build groupBy boundaries default outputs)) Parsed := by
  have hbuild : Ensures (Bucket.build groupBy boundaries default outputs) fun b =>
      b.groupBy = groupBy ∧ b.outputs = outputs ∧
        ∀ p ∈ outputs.map Prod.fst, p.isFieldName = true := by
    unfold Bucket.build
    refine ensures_ite (ensures_error rfl) (ensures_ite (ensures_error rfl) ?_)
    refine ensures_ite (ensures_error rfl) ?_
    exact ensures_bind (ensures_checkOutputs _ h) fun _ hn => ensures_pure ⟨rfl, rfl, hn⟩
  refine ensures_bind hbuild ?_
  rintro ⟨_, _, _, _⟩ ⟨rfl, rfl, hn⟩
  refine ensures_pure (NodeParsed.leaf ?_ rfl)
  apply NodeParsed.of
  case values => exact List.forall_mem_singleton.2 hg
  case outputs => exact fun o ho => (h o ho).2
  case names => exact hn
  all_goals exact List.forall_mem_nil _

/-- Buckets of equal size are built from what is parsed. -/
lemma ensures_bucketAuto {groupBy : Expr} {buckets : Int} {outputs : List (Path × Expr)}
    {granularity : Option String} (hg : groupBy.Parsed) (hb : buckets < 2 ^ 63)
    (h : OutputsParsed outputs) :
    Ensures (do return bucketAuto (← BucketAuto.build groupBy buckets outputs granularity))
      Parsed := by
  have hbuild : Ensures (BucketAuto.build groupBy buckets outputs granularity) fun b =>
      (0 < b.buckets ∧ b.buckets < 2 ^ 63) ∧ b.groupBy = groupBy ∧ b.outputs = outputs ∧
        ∀ p ∈ outputs.map Prod.fst, p.isFieldName = true := by
    refine ensures_bind (ensures_positive _ hb) fun n hn => ?_
    refine ensures_bind (ensures_checkOutputs _ h) fun _ hnames => ?_
    exact ensures_pure ⟨hn, rfl, rfl, hnames⟩
  refine ensures_bind hbuild ?_
  rintro ⟨_, _, _, _⟩ ⟨hcount, rfl, rfl, hn⟩
  refine ensures_pure (NodeParsed.leaf ?_ rfl)
  apply NodeParsed.of
  case values => exact List.forall_mem_singleton.2 hg
  case outputs => exact fun o ho => (h o ho).2
  case names => exact hn
  case counts => exact List.forall_mem_singleton.2 hcount
  all_goals exact List.forall_mem_nil _

/-- A lookup is built from names. -/
lemma ensures_lookup (source localField foreignField asField : String) :
    Ensures (do return lookup (← Lookup.build source localField foreignField asField))
      Parsed := by
  have hbuild : Ensures (Lookup.build source localField foreignField asField) fun l =>
      isTableName l.source = true ∧ l.asField.isFieldName = true ∧
        l.localField.isFieldName = true ∧ l.foreignField.isFieldName = true := by
    refine ensures_bind (ensures_checkTableName source) fun _ hs => ?_
    refine ensures_bind (ensures_fieldName asField) fun _ ha => ?_
    refine ensures_bind (ensures_fieldPath localField) fun _ hl => ?_
    exact ensures_bind (ensures_fieldPath foreignField) fun _ hf => ensures_pure ⟨hs, ha, hl, hf⟩
  refine ensures_bind hbuild ?_
  rintro l ⟨hs, ha, hl, hf⟩
  refine ensures_pure (NodeParsed.leaf ?_ rfl)
  apply NodeParsed.of
  case names =>
    exact List.forall_mem_cons.2 ⟨ha, List.forall_mem_cons.2 ⟨hl, List.forall_mem_singleton.2 hf⟩⟩
  case tables => exact List.forall_mem_singleton.2 hs
  all_goals exact List.forall_mem_nil _

/-- An unwound array is named by a field. -/
lemma parsed_unwind {u : Unwind} (hp : u.path.isFieldName = true)
    (hi : ∀ p ∈ u.index, p.isFieldName = true) : (unwind u).Parsed := by
  refine NodeParsed.leaf ?_ rfl
  apply NodeParsed.of
  case names => exact List.forall_mem_cons.2 ⟨hp, fun p hmem => hi p (Option.mem_toList.1 hmem)⟩
  all_goals exact List.forall_mem_nil _

/-- A recursive lookup is made of what is parsed. -/
lemma parsed_graphLookup {g : GraphLookup} (hs : isTableName g.source = true)
    (hstart : g.startWith.Parsed) (hrestrict : ∀ e ∈ g.restrict, e.Parsed)
    (hnames : g.connectFrom.isFieldName = true ∧ g.connectTo.isFieldName = true ∧
      g.asField.isFieldName = true) (hdepth : ∀ p ∈ g.depthField, p.isFieldName = true) :
    (graphLookup g).Parsed := by
  refine NodeParsed.leaf ?_ rfl
  apply NodeParsed.of
  case values =>
    exact List.forall_mem_cons.2 ⟨hstart, fun e he => hrestrict e (Option.mem_toList.1 he)⟩
  case names =>
    refine List.forall_mem_cons.2 ⟨hnames.1, List.forall_mem_cons.2 ⟨hnames.2.1, ?_⟩⟩
    exact List.forall_mem_cons.2 ⟨hnames.2.2, fun p hp => hdepth p (Option.mem_toList.1 hp)⟩
  case tables => exact List.forall_mem_singleton.2 hs
  all_goals exact List.forall_mem_nil _

/-- A window is built from what is parsed. -/
lemma ensures_windowFields {partitionBy : Option Expr} {sortBy : List SortKey}
    {outputs : List (Path × WindowOutput)} (hp : ∀ e ∈ partitionBy, e.Parsed)
    (hs : ∀ k ∈ sortBy, k.path.isFieldName = true)
    (h : ∀ o ∈ outputs, o.1.Spelled ∧ o.2.isComplete = true ∧ ∀ e ∈ o.2.arg, e.Parsed) :
    Ensures (do return windowFields (← WindowFields.build partitionBy sortBy outputs))
      Parsed := by
  have hbuild : Ensures (WindowFields.build partitionBy sortBy outputs) fun w =>
      w.partitionBy = partitionBy ∧ w.sortBy = sortBy ∧ w.outputs = outputs ∧
        ∀ o ∈ outputs, o.1.isFieldName = true := by
    unfold WindowFields.build
    refine ensures_ite (ensures_error rfl) (ensures_bind (ensures_forM fun o ho => ?_) fun _ hn =>
      ensures_pure ⟨rfl, rfl, rfl, hn⟩)
    exact ensures_bind (h o ho).1.ensures_check fun _ hname =>
      ensures_ite (ensures_error rfl) (ensures_pure hname)
  refine ensures_bind hbuild ?_
  rintro ⟨_, _, _⟩ ⟨rfl, rfl, rfl, hn⟩
  refine ensures_pure (NodeParsed.leaf ?_ rfl)
  apply NodeParsed.of
  case values =>
    refine List.forall_mem_append.2 ⟨fun e he => hp e (Option.mem_toList.1 he), fun e he => ?_⟩
    obtain ⟨o, ho, harg⟩ := List.mem_filterMap.1 he
    exact (h o ho).2.2 e harg
  case windows => exact List.forall_mem_map.2 fun o ho => (h o ho).2.1
  case names =>
    exact List.forall_mem_append.2 ⟨List.forall_mem_map.2 hs, List.forall_mem_map.2 hn⟩
  all_goals exact List.forall_mem_nil _

/-- The check of a target ensures that its parts are table names. -/
lemma ensures_checkTarget (schema : Option String) (table : String) :
    Ensures (checkTarget schema table) fun _ =>
      ∀ t ∈ table :: schema.toList, isTableName t = true := by
  cases schema with
  | none =>
    exact (ensures_checkTableName table).imp fun _ ht =>
      List.forall_mem_cons.2 ⟨ht, List.forall_mem_nil _⟩
  | some schema =>
    refine ensures_bind (ensures_checkTableName schema) fun _ hs => ?_
    exact (ensures_checkTableName table).imp fun _ ht =>
      List.forall_mem_cons.2 ⟨ht, List.forall_mem_singleton.2 hs⟩

/-- A merge is made of names. -/
lemma parsed_merge {m : Merge} (ht : ∀ t ∈ m.table :: m.schema.toList, isTableName t = true)
    (hon : ∀ p ∈ m.on, p.isFieldName = true) : (merge m).Parsed := by
  refine NodeParsed.leaf ?_ rfl
  apply NodeParsed.of
  case names => exact hon
  case tables => exact ht
  all_goals exact List.forall_mem_nil _

/-- A target is built from names. -/
lemma ensures_out (schema : Option String) (table : String) :
    Ensures (do return out (← Out.build schema table)) Parsed := by
  have hbuild : Ensures (Out.build schema table) fun o =>
      ∀ t ∈ o.table :: o.schema.toList, isTableName t = true :=
    ensures_bind (ensures_checkTarget schema table) fun _ ht => ensures_pure ht
  refine ensures_bind hbuild fun o ho => ensures_pure (NodeParsed.leaf ?_ rfl)
  apply NodeParsed.of
  case tables => exact ho
  all_goals exact List.forall_mem_nil _

/-! ## Stages inside stages -/

/-- A union is built from a name and parsed stages. -/
lemma ensures_ofUnion (source : String) {stages : Option (List Stage)}
    (h : ∀ ss ∈ stages, ∀ s ∈ ss, s.Parsed) : Ensures (ofUnion source stages) Parsed := by
  refine ensures_bind (ensures_checkTableName source) fun _ hs => ensures_pure ?_
  refine parsed_iff.2 ⟨?_, ?_⟩
  · apply NodeParsed.of
    case tables => exact List.forall_mem_singleton.2 hs
    all_goals exact List.forall_mem_nil _
  · cases stages with
    | none => exact List.forall_mem_nil _
    | some ss => exact h ss rfl

/-- A lookup by a pipeline is built from parsed variables and stages. -/
lemma ensures_ofLookupPipeline (source asField : String) {vars : List (String × Expr)}
    {stages : List Stage} (hv : ∀ v ∈ vars, v.2.Parsed) (h : ∀ s ∈ stages, s.Parsed) :
    Ensures (ofLookupPipeline source asField vars stages) Parsed := by
  refine ensures_bind (ensures_checkTableName source) fun _ hs => ?_
  refine ensures_bind (ensures_fieldName asField) fun p hp => ensures_pure ?_
  refine parsed_iff.2 ⟨?_, h⟩
  apply NodeParsed.of
  case values => exact List.forall_mem_map.2 hv
  case names => exact List.forall_mem_singleton.2 hp
  case tables => exact List.forall_mem_singleton.2 hs
  all_goals exact List.forall_mem_nil _

/-- Facets are built from parsed stages. -/
lemma ensures_ofFacets {facets : List (Path × List Stage)}
    (h : ∀ f ∈ facets, f.1.Spelled ∧ ∀ s ∈ f.2, s.Parsed) :
    Ensures (ofFacets facets) Parsed := by
  unfold ofFacets
  refine ensures_ite (ensures_error rfl) (ensures_bind (ensures_forM
    (P := fun f => f.1.isFieldName = true ∧ ∀ s ∈ f.2, s.isFacetable = true) fun f hf =>
      ensures_bind (h f hf).1.ensures_check fun _ hname => ?_) fun _ hc => ensures_pure ?_)
  · split
    · exact ensures_error rfl
    · next hfind =>
      exact ensures_pure ⟨hname, fun s hs => by simpa using List.find?_eq_none.1 hfind s hs⟩
  · refine parsed_iff.2 ⟨?_, List.forall_mem_flatMap.2 fun f hf => (h f hf).2⟩
    apply NodeParsed.of
    case names => exact List.forall_mem_map.2 fun f hf => (hc f hf).1
    case facets => exact List.forall_mem_flatMap.2 fun f hf => (hc f hf).2
    all_goals exact List.forall_mem_nil _

end Stage

end PipelineSql
