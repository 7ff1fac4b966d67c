import PipelineSql.Proofs.WellFormed.Stage

/-!
# Reading well-formed pipelines

Every rule of the grammar of stages builds a well-formed stage, so what is read is well formed at
any depth.
-/

namespace PipelineSql

open Result

/-- A phrase that spells only what is well formed. -/
structure Phrase.Spells (p : Phrase) : Prop extends p.SpellsExpr where
  stage : Ensures p.stage Stage.Parsed
  stages : Ensures p.pipeline fun stages => ∀ s ∈ stages, s.Parsed

/-- A phrase that spells stages is read as stages that are well formed. -/
lemma Phrase.Spells.pipeline {p : Phrase} (h : p.Spells) :
    Ensures p.pipeline fun stages => ∀ s ∈ stages, s.WellFormed :=
  h.stages.imp fun _ hs s hmem => (hs s hmem).wellFormed

namespace Grammar

open Phrase Stage

variable {spec : Phrase} {doc : Phrases}

/-! ## Refusals -/

instance (key what : String) : Ordinary (textOption doc key what) := by
  unfold textOption
  infer_instance

instance (n : Int) : Ordinary (SortOrder.ofInt n) := by
  unfold SortOrder.ofInt
  split
  · infer_instance
  · split <;> first | infer_instance | exact ordinary_fault rfl

instance (side : FrameEnd) (bound : Literal) : Ordinary (FrameBound.ofLiteral side bound) := by
  unfold FrameBound.ofLiteral
  split
  · split <;> infer_instance
  · split
    · infer_instance
    · split
      · infer_instance
      · exact ordinary_fault rfl

instance (kind : FrameKind) (lower upper : Literal) :
    Ordinary (Frame.ofLiterals kind lower upper) := by
  have hframe (a b : FrameBound) : Ordinary (match a.offset?, b.offset? with
      | some i, some j =>
        if j < i then fault .windowOrder else (pure ⟨kind, a, some b⟩ : Result Frame)
      | _, _ => pure ⟨kind, a, some b⟩) := by
    split
    · split <;> first | infer_instance | exact ordinary_fault rfl
    · infer_instance
  exact ⟨ensures_then fun a => ensures_then fun b => (hframe a b).satisfies⟩

instance (p : Phrase) : Ordinary (windowFrame p) := by
  have hbounds (kind : FrameKind) (items : List Phrase) : Ordinary (match items with
      | [lower, upper] => (do
        let lower ← lower.literal "window bound"
        let upper ← upper.literal "window bound"
        Frame.ofLiterals kind lower upper : Result Frame)
      | _ => fault .windowBounds) := by
    split
    · infer_instance
    · exact ordinary_fault rfl
  refine ⟨ensures_then fun doc => ensures_ite (ensures_error rfl) (ensures_then fun entry => ?_)⟩
  dsimp only
  split
  · exact ensures_then fun kind => ensures_then fun items => (hbounds kind items).satisfies
  · exact ensures_then fun kind => ensures_then fun items => (hbounds kind items).satisfies
  · exact ensures_error rfl

instance (n : Int) : Ordinary (depth n) := by
  unfold depth
  split <;> first | infer_instance | exact ordinary_fault rfl

instance (p : Phrase) (what : String) : Ordinary (target p what) := by
  unfold target
  split <;> infer_instance

instance (name : String) : Ordinary (WhenMatched.ofName name) := by
  unfold WhenMatched.ofName
  split <;> first | infer_instance | exact ordinary_fault rfl

instance (name : String) : Ordinary (WhenNotMatched.ofName name) := by
  unfold WhenNotMatched.ofName
  split <;> first | infer_instance | exact ordinary_fault rfl

instance (p : Phrase) : Ordinary (whenMatched p) := by
  unfold whenMatched
  split <;> infer_instance

/-! ## Fields and keys -/

/-- Fields with expressions have names that are spelled. -/
lemma ensures_pathFields (h : ∀ entry ∈ doc, Throughout SpellsExpr entry.2) :
    Ensures (pathFields doc) fun fields => ∀ f ∈ fields, f.1.Spelled ∧ f.2.Parsed :=
  ensures_mapM fun entry hentry => ensures_bind (h entry hentry).self.expr fun _ he =>
    ensures_pure ⟨Path.spelled_ofString _, he⟩

/-- Accumulators are read as accumulations. -/
lemma ensures_accumulators (h : ∀ entry ∈ doc, Throughout SpellsExpr entry.2) :
    Ensures (accumulators doc) OutputsParsed :=
  ensures_mapM fun entry hentry =>
    ensures_bind (ensures_accumulator entry.1 (h entry hentry)) fun _ he =>
      ensures_pure ⟨Path.spelled_ofString _, he⟩

/-- Sort keys are paths to fields. -/
lemma ensures_sortKeys (p : Phrase) (what : String) :
    Ensures (sortKeys p what) fun keys => ∀ k ∈ keys, k.path.isFieldName = true := by
  refine ensures_then fun doc => ensures_mapM fun entry _ => ?_
  dsimp only
  split
  · exact ensures_error rfl
  · refine ensures_bind (ensures_fieldPath entry.1) fun path hp => ?_
    exact ensures_then fun _ => ensures_then fun _ => ensures_pure hp

/-- A projection excludes fields, or gives each an expression. -/
lemma ensures_projectStage (h : spec.Throughout SpellsExpr) :
    Ensures (project spec) Stage.Parsed := by
  have hfield (p : Phrase) (hp : p.Throughout SpellsExpr) : Ensures (projectField p) fun f =>
      ∀ e, f = .computed e → e.Parsed := by
    unfold projectField
    split
    · exact ensures_pure (by rintro _ ⟨⟩)
    · exact ensures_pure (by rintro _ ⟨⟩)
    · refine ensures_bind hp.self.expr fun e he => ensures_pure ?_
      rintro _ ⟨⟩
      exact he
  refine ensures_bind (ensures_document h _) fun doc hdoc => ?_
  refine ensures_bind (ensures_mapM
    (Q := fun f => f.1.Spelled ∧ ∀ e, f.2 = .computed e → e.Parsed) fun entry hentry =>
      ensures_bind (hfield _ (hdoc entry hentry)) fun _ hf =>
        ensures_pure ⟨Path.spelled_ofString _, hf⟩) fun fields hf => ?_
  refine ensures_project (fun f hmem => (hf f hmem).1) fun e he => ?_
  obtain ⟨f, hmem, hvalue⟩ := List.mem_filterMap.1 he
  split at hvalue
  · cases hvalue
    exact (hf f hmem).2 e ‹_›
  · cases hvalue

/-- The id of a group is an expression, if there is one. -/
lemma ensures_groupId (h : spec.Throughout SpellsExpr) :
    Ensures (groupId spec) fun o => ∀ e ∈ o, e.Parsed := by
  have hexpr : Ensures (do return some (← spec.expr)) fun o => ∀ e ∈ o, e.Parsed :=
    ensures_bind h.self.expr fun _ he => ensures_pure (by simpa using he)
  have hexprs : Ensures (Phrases.exprs spec.entries) fun fields => ∀ f ∈ fields, f.2.Parsed :=
    ensures_mapM fun entry hentry =>
      ensures_bind (h.entries entry hentry).self.expr fun _ he => ensures_pure he
  unfold groupId
  split
  · exact ensures_pure (by simp)
  · refine ensures_ite ?_ hexpr
    refine ensures_bind hexprs fun fields hf => ?_
    exact ensures_bind (Expr.ensures_ofCompoundId hf) fun _ he => ensures_pure (by simpa using he)
  · exact hexpr

/-- A group has an id and accumulators. -/
lemma ensures_groupStage (h : spec.Throughout SpellsExpr) :
    Ensures (group spec) Stage.Parsed := by
  refine ensures_bind (ensures_document h _) fun doc hdoc => ?_
  refine ensures_bind (ensures_required hdoc _ _) fun p hp => ?_
  refine ensures_bind (ensures_groupId hp) fun id hid => ?_
  refine ensures_bind (ensures_accumulators fun entry hentry =>
    hdoc entry (List.mem_filter.1 hentry).1) fun outputs houtputs => ?_
  exact ensures_group hid houtputs

/-- An array is named by its path, or by an object with it. -/
lemma ensures_unwindStage (spec : Phrase) : Ensures (unwind spec) Stage.Parsed := by
  have htarget (text : String) : Ensures (Unwind.target text) fun p => p.isFieldName = true :=
    ensures_ite (ensures_fieldPath text) (ensures_error rfl)
  unfold unwind
  split
  · exact ensures_bind (htarget _) fun _ hp => ensures_pure (parsed_unwind hp (by simp))
  · refine ensures_then fun doc => ensures_then fun _ => ensures_then fun _ => ?_
    refine ensures_then fun text => ensures_bind (htarget text) fun path hp => ?_
    refine ensures_bind (ensures_optional fun p _ => ensures_then fun name =>
      ensures_fieldName name) fun _ hi => ?_
    exact ensures_then fun _ => ensures_pure (parsed_unwind hp hi)

/-- Outputs are accumulators, if there are any. -/
lemma ensures_outputs (h : ∀ entry ∈ doc, Throughout SpellsExpr entry.2) (what : String) :
    Ensures (outputs doc what) OutputsParsed := by
  refine ensures_bind (ensures_optional fun p hp =>
    ensures_bind (ensures_document (throughout_of_lookup h hp) _) fun _ hdoc =>
      ensures_accumulators hdoc) fun found hfound => ensures_pure ?_
  cases found with
  | none => exact List.forall_mem_nil _
  | some outputs => exact hfound outputs rfl

/-- Buckets have a subject and outputs. -/
lemma ensures_bucketStage (h : spec.Throughout SpellsExpr) :
    Ensures (bucket spec) Stage.Parsed := by
  refine ensures_bind (ensures_document h _) fun doc hdoc => ensures_then fun _ => ?_
  refine ensures_then fun _ => ensures_then fun bounds => ?_
  split
  · refine ensures_then fun _ => ensures_bind (ensures_outputs hdoc _) fun outputs houtputs => ?_
    exact ensures_requiredExpr hdoc _ _ fun groupBy hg => ensures_bucket hg houtputs
  · exact ensures_error rfl

/-- Buckets of equal size have a subject, a number and outputs. -/
lemma ensures_bucketAutoStage (h : spec.Throughout SpellsExpr) :
    Ensures (bucketAuto spec) Stage.Parsed := by
  refine ensures_bind (ensures_document h _) fun doc hdoc => ensures_then fun _ => ?_
  refine ensures_then fun _ => ensures_requiredExpr hdoc _ _ fun groupBy hg => ?_
  refine ensures_then fun p => ensures_bind (ensures_integer p _) fun buckets hb => ?_
  exact ensures_bind (ensures_outputs hdoc _) fun _ houtputs => ensures_bucketAuto hg hb houtputs

/-- A recursive lookup has a start and may be restricted. -/
lemma ensures_graphLookupStage (h : spec.Throughout SpellsExpr) :
    Ensures (graphLookup spec) Stage.Parsed := by
  have hbuild (source : String) {startWith : Expr} (connectFrom connectTo asField : String)
      (hs : startWith.Parsed) :
      Ensures (GraphLookup.build source startWith connectFrom connectTo asField) fun g =>
        isTableName g.source = true ∧ g.startWith.Parsed ∧ g.connectFrom.isFieldName = true ∧
          g.connectTo.isFieldName = true ∧ g.asField.isFieldName = true := by
    refine ensures_bind (ensures_checkTableName source) fun _ ht => ?_
    refine ensures_bind (ensures_fieldName asField) fun _ ha => ?_
    refine ensures_bind (ensures_fieldPath connectFrom) fun _ hfrom => ?_
    refine ensures_bind (ensures_fieldPath connectTo) fun _ hto => ?_
    exact ensures_pure ⟨ht, hs, hfrom, hto, ha⟩
  unfold graphLookup
  refine ensures_bind (ensures_document h _) fun doc hdoc => ensures_then fun _ => ?_
  refine ensures_then fun source => ensures_requiredExpr hdoc _ _ fun startWith hs => ?_
  refine ensures_then fun connectFrom => ensures_then fun connectTo => ?_
  refine ensures_then fun asField => ?_
  refine ensures_bind (hbuild source connectFrom connectTo asField hs) ?_
  rintro g ⟨ht, hstart, hnames⟩
  refine ensures_then fun maxDepth => ?_
  refine ensures_bind (ensures_optional fun p _ => ensures_then fun name =>
    ensures_fieldName name) fun depthField hdepth => ?_
  refine ensures_bind (ensures_optional fun p hp => (throughout_of_lookup hdoc hp).self.filter)
    fun restrict hrestrict => ensures_pure ?_
  exact parsed_graphLookup ht hstart hrestrict hnames hdepth

/-- A window function has an argument, unless it needs none. -/
lemma ensures_ofArgument (op : WindowOp) (arg : Option Expr) :
    Ensures (WindowOutput.ofArgument op arg) fun w =>
      w.op = op ∧ w.arg = arg ∧ (arg.isSome || op.isRanking || op == .count) = true := by
  unfold WindowOutput.ofArgument
  split
  · exact ensures_error rfl
  · rename_i h
    refine ensures_pure ⟨rfl, rfl, ?_⟩
    cases arg <;> cases hr : op.isRanking <;> simp_all

/-- A window function that is read is complete. -/
lemma ensures_windowFunction (op : WindowOp) (h : spec.Throughout SpellsExpr) :
    Ensures (windowFunction op spec) fun w => w.isComplete = true ∧ ∀ e ∈ w.arg, e.Parsed := by
  -- A shift has its offset, and no other function needs one.
  have hother (hop : op ≠ .shift) (arg : Option Expr) (harg : ∀ e ∈ arg, e.Parsed) :
      Ensures (WindowOutput.ofArgument op arg) fun w =>
        w.isComplete = true ∧ ∀ e ∈ w.arg, e.Parsed := by
    refine (ensures_ofArgument op arg).imp ?_
    rintro w ⟨rfl, rfl, hcomplete⟩
    exact ⟨by simp [WindowOutput.isComplete, hcomplete, hop], harg⟩
  unfold windowFunction
  split
  · refine ensures_bind (ensures_document h _) fun doc hdoc => ensures_then fun _ => ?_
    refine ensures_then fun default => ensures_requiredExpr hdoc _ _ fun value hv => ?_
    refine ensures_then fun _ => ensures_then fun offset => ?_
    refine ensures_bind (ensures_ofArgument .shift (some value)) ?_
    rintro w ⟨_, harg, _⟩
    refine ensures_pure ⟨by simp [WindowOutput.isComplete, harg], ?_⟩
    rw [harg]
    simpa using hv
  · rename_i hop
    refine ensures_ite (ensures_ite (hother hop none (by simp)) (ensures_error rfl)) ?_
    exact ensures_bind h.self.expr fun e he => hother hop (some e) (by simpa using he)

/-- An output of a window is a function that is complete. -/
lemma ensures_windowOutput (name : String) (h : spec.Throughout SpellsExpr) :
    Ensures (windowOutput name spec) fun w => w.isComplete = true ∧ ∀ e ∈ w.arg, e.Parsed := by
  unfold windowOutput
  dsimp only
  refine ensures_bind (ensures_document h _) fun doc hdoc => ?_
  split
  · rename_i opName arg harg
    have hmem : (opName, arg) ∈ doc.filter fun entry => entry.1 != "window" := by
      rw [harg]
      exact List.mem_cons_self
    refine ensures_then fun op => ?_
    refine ensures_bind (ensures_windowFunction op (hdoc _ (List.mem_filter.1 hmem).1)) ?_
    exact fun w hw => ensures_then fun frame => ensures_pure hw
  · exact ensures_error rfl

/-- A window has a partition, an order and outputs. -/
lemma ensures_windowFieldsStage (h : spec.Throughout SpellsExpr) :
    Ensures (windowFields spec) Stage.Parsed := by
  unfold windowFields
  dsimp only
  refine ensures_bind (ensures_document h _) fun doc hdoc => ensures_then fun _ => ?_
  refine ensures_bind (ensures_optionalExpr hdoc _) fun partitionBy hp => ?_
  refine ensures_bind (ensures_optional fun p _ => ensures_sortKeys p "sortBy") fun sortBy hs => ?_
  refine ensures_bind (ensures_required hdoc _ _) fun p hp' => ?_
  refine ensures_bind (ensures_document hp' _) fun outputs houtputs => ?_
  refine ensures_bind (ensures_mapM fun entry hentry =>
    ensures_bind (ensures_windowOutput entry.1 (houtputs entry hentry)) fun w hw =>
      ensures_pure (P := fun o : Path × WindowOutput => o.1.Spelled ∧ o.2.isComplete = true ∧
        ∀ e ∈ o.2.arg, e.Parsed) ⟨Path.spelled_ofString _, hw⟩) fun ws hws => ?_
  refine ensures_windowFields hp ?_ hws
  cases sortBy with
  | none => exact List.forall_mem_nil _
  | some keys => exact hs keys rfl

/-- A merge names its table as text or as an object. -/
lemma ensures_mergeStage (spec : Phrase) : Ensures (merge spec) Stage.Parsed := by
  have hbuild (schema : Option String) (table : String) :
      Ensures (Merge.build schema table) fun m =>
        (∀ t ∈ m.table :: m.schema.toList, isTableName t = true) ∧
          ∀ p ∈ m.on, p.isFieldName = true :=
    ensures_bind (ensures_checkTarget schema table) fun _ ht =>
      ensures_pure ⟨ht, List.forall_mem_singleton.2 (by decide)⟩
  have hkeys (names : List String) : Ensures (Merge.keys names) fun ps =>
      ∀ p ∈ ps, p.isFieldName = true :=
    ensures_ite (ensures_error rfl) (ensures_mapM fun name _ => ensures_fieldName name)
  unfold merge
  split
  · refine ensures_bind (hbuild none _) fun m hm => ensures_pure (parsed_merge hm.1 hm.2)
  · refine ensures_then fun doc => ensures_then fun _ => ensures_ite (ensures_error rfl) ?_
    refine ensures_then fun _ => ensures_then fun into => ?_
    refine ensures_bind (hbuild _ _) fun base hbase => ?_
    refine ensures_bind (ensures_optional fun p _ => ensures_then fun names => hkeys names)
      fun on hon => ?_
    refine ensures_then fun _ => ensures_then fun _ => ensures_pure (parsed_merge hbase.1 ?_)
    cases on with
    | none => exact hbase.2
    | some keys => exact hon keys rfl

/-! ## Stages inside stages -/

/-- A lookup is by equality or by a pipeline. -/
lemma ensures_lookupStage (h : spec.Throughout Spells) :
    Ensures (Grammar.lookup spec) Stage.Parsed := by
  refine ensures_bind (ensures_document h _) fun doc hdoc => ?_
  refine ensures_then fun source => ensures_then fun asField => ?_
  split
  · rename_i nested hnested
    refine ensures_then fun _ => ?_
    refine ensures_bind (ensures_optional fun p hp => ensures_bind
      (ensures_document (throughout_of_lookup hdoc hp) _) fun vars hvars =>
        ensures_mapM (Q := fun v : String × Expr => v.2.Parsed) fun entry hentry =>
          ensures_bind (hvars entry hentry).self.expr fun _ he => ensures_pure he)
      fun vars hvars => ?_
    refine ensures_bind (throughout_of_lookup hdoc hnested).self.stages fun stages hstages => ?_
    refine ensures_ofLookupPipeline source asField ?_ hstages
    cases vars with
    | none => exact List.forall_mem_nil _
    | some vars => exact hvars vars rfl
  · refine ensures_then fun _ => ensures_then fun localField => ensures_then fun foreignField => ?_
    exact ensures_lookup source localField foreignField asField

/-- Each facet is a pipeline. -/
lemma ensures_facetStage (h : spec.Throughout Spells) :
    Ensures (facet spec) Stage.Parsed := by
  refine ensures_bind (ensures_document h _) fun doc hdoc => ?_
  refine ensures_bind (ensures_mapM fun entry hentry =>
    ensures_bind (hdoc entry hentry).self.stages fun stages hstages =>
      ensures_pure (P := fun f : Path × List Stage => f.1.Spelled ∧ ∀ s ∈ f.2, s.Parsed)
        ⟨Path.spelled_ofString _, hstages⟩) fun facets hfacets => ?_
  exact ensures_ofFacets hfacets

/-- A union names a table and may have a pipeline. -/
lemma ensures_unionWithStage (h : spec.Throughout Spells) :
    Ensures (unionWith spec) Stage.Parsed := by
  unfold unionWith
  split
  · exact ensures_ofUnion _ (by simp)
  · refine ensures_bind (ensures_document h _) fun doc hdoc => ensures_then fun _ => ?_
    refine ensures_then fun source => ?_
    exact ensures_bind (ensures_optional fun p hp => (throughout_of_lookup hdoc hp).self.stages)
      fun stages hstages => ensures_ofUnion source hstages

/-- The stage of every name is well formed. -/
lemma ensures_stageNamed (name : String) (h : spec.Throughout Spells) :
    Ensures (stageNamed name spec) Stage.Parsed := by
  have he : spec.Throughout SpellsExpr := h.imp fun _ hp => hp.toSpellsExpr
  have haddFields : Ensures (do Stage.ofFields (← pathFields (← spec.document name)))
      Stage.Parsed :=
    ensures_bind (ensures_document he _) fun _ hdoc =>
      ensures_bind (ensures_pathFields hdoc) fun _ hf => ensures_ofFields hf
  fun_cases stageNamed name spec with
  | case1 => exact ensures_bind he.self.filter fun _ he => ensures_pure (parsed_value he).1
  | case2 => exact ensures_projectStage he
  | case3 => exact haddFields
  | case4 => exact haddFields
  | case5 => exact ensures_groupStage he
  | case6 => exact ensures_bind (ensures_sortKeys spec _) fun _ hk => ensures_ofSort hk
  | case7 => exact ensures_bind (ensures_integer spec _) fun _ hn => ensures_ofLimit hn
  | case8 => exact ensures_bind (ensures_integer spec _) fun _ hn => ensures_ofSkip hn
  | case9 => exact ensures_lookupStage h
  | case10 => exact ensures_unwindStage spec
  | case11 =>
    refine ensures_bind (ensures_document he _) fun doc hdoc => ensures_then fun _ => ?_
    exact ensures_requiredExpr hdoc _ _ fun _ he => ensures_pure (parsed_value he).2.1
  | case12 => exact ensures_bind he.self.expr fun _ he => ensures_pure (parsed_value he).2.1
  | case13 => exact ensures_then fun names => ensures_ofUnset names
  | case14 => exact ensures_then fun field => ensures_ofCount field
  | case15 => exact ensures_bucketStage he
  | case16 => exact ensures_bucketAutoStage he
  | case17 => exact ensures_facetStage h
  | case18 => exact ensures_graphLookupStage he
  | case19 => exact ensures_windowFieldsStage he
  | case20 => exact ensures_bind he.self.expr fun _ he => ensures_pure (parsed_value he).2.2
  | case21 => exact ensures_mergeStage spec
  | case22 => exact ensures_then fun target => ensures_out target.1 target.2
  | case23 => exact ensures_unionWithStage h
  | case24 =>
    refine ensures_then fun doc => ensures_then fun _ => ensures_then fun p => ?_
    exact ensures_bind (ensures_integer p _) fun _ hn => ensures_ofSample hn
  | case25 => exact ensures_error rfl

end Grammar

/-! ## What is read -/

namespace Phrase

/-- Spelling only what is well formed is inherited from the parts of a phrase. -/
lemma inherited_spells : Inherited Spells where
  constant _ l :=
    { expr := ensures_pure (Expr.parsed_lit l)
      filter := ensures_error rfl
      operators := fun _ => ensures_error rfl
      stage := ensures_error rfl
      stages := ensures_error rfl }
  reference s :=
    { expr := Grammar.ensures_reference s
      filter := ensures_error rfl
      operators := fun _ => ensures_error rfl
      stage := ensures_error rfl
      stages := ensures_error rfl }
  items json _ h :=
    { expr := Grammar.ensures_arrayLiteral json
      filter := ensures_error rfl
      operators := fun _ => ensures_error rfl
      stage := ensures_error rfl
      stages := ensures_mapM fun q hq => (h q hq).self.stage }
  entries _ entries h :=
    have he : ∀ entry ∈ entries, Throughout SpellsExpr entry.2 :=
      fun entry hentry => (h entry hentry).imp fun _ hp => hp.toSpellsExpr
    { expr := Grammar.ensures_object he
      filter := Grammar.ensures_filter he
      operators := Grammar.ensures_queryOperators he
      stage := ensures_bind (ensures_single h _) fun entry hentry =>
        Grammar.ensures_stageNamed entry.1 hentry
      stages := ensures_error rfl }

end Phrase

/-- Reading yields well-formed trees only. At any depth of a pipeline that is read, operators have
the arguments that they take, names are admissible, counts are positive 64-bit numbers, and
accumulators are the outputs of groupings. -/
theorem parsed_stages_wellFormed {j : Json} {stages : List Stage}
    (h : parsePipeline j = .ok stages) : ∀ s ∈ stages, s.WellFormed :=
  (Phrase.throughout_ofJson Phrase.inherited_spells j).self.pipeline.value h

/-- The sums of each shop and some documents of an archive, written to a report. -/
def reportJson : Json :=
  .arr [
    .obj [("$facet", .obj [("totals", .arr [.obj [("$group", .obj [("_id", .str "$shop"),
      ("total", .obj [("$sum", .str "$lines.0.price")])])]])])],
    .obj [("$unionWith", .obj [("coll", .str "archive"),
      ("pipeline", .arr [.obj [("$limit", .num (.int 10))]])])],
    .obj [("$out", .obj [("db", .str "app"), ("coll", .str "report")])]]

def reportStages : List Stage :=
  [.facet [(⟨["totals"]⟩, [.group
      { id := some (.field { path := ⟨["shop"]⟩ })
        outputs := [(⟨["total"]⟩,
          .accumulate .sum (some (.field { path := ⟨["lines", "0", "price"]⟩ })))] }])],
    .unionWith "archive" (some [.limit 10]),
    .out { schema := some "app", table := "report" }]

theorem reportStages_wellFormed :
    parsePipeline reportJson = .ok reportStages ∧ ∀ s ∈ reportStages, s.WellFormed := by
  have hparse : parsePipeline reportJson = .ok reportStages := rfl
  exact ⟨hparse, parsed_stages_wellFormed hparse⟩

end PipelineSql
