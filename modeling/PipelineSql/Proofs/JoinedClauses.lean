import PipelineSql.Proofs.ConditionTrees
import PipelineSql.Proofs.Exports
import PipelineSql.Proofs.PrintedTokens
import PipelineSql.Proofs.RowSteps

/-!
# Clauses of conditions

The conditions of a `WHERE` or a `HAVING` clause come from several stages, and are joined again: each
in brackets, with `AND` between them. In every draft of a compilation they keep together, and no text
of the row has joints. So the clause reads as the trees of the filters, one after another.

The invariant of a draft is `Draft.WellJoined`, which every stage keeps.
-/

namespace PipelineSql

open Fragment Render

/-! ## Rows -/

/-- The text that a column selects has no joints. -/
def Column.Unjoined (c : Column) : Prop :=
  ∀ f ∈ c.texts, f.Unjoined

lemma Column.unjoined_output {name : Path} {f : Fragment} {json : Bool} (h : f.Unjoined) :
    Column.Unjoined { name, value := .output f, json } :=
  List.forall_mem_singleton.2 h

lemma Entry.mem_of_mem_distinct {e : Entry} {es : List Entry} (h : e ∈ Entry.distinct es) :
    e ∈ es :=
  List.mem_reverse.1 (List.mem_of_find?_eq_some (Entry.mem_distinct_iff.1 h))

namespace Scope

variable {s : Scope}

lemma unjoined_document (source column : String) : (Scope.document source column).Unjoined :=
  List.forall_mem_nil _

lemma unjoined_columns {columns : List Column} (h : ∀ c ∈ columns, c.Unjoined) :
    Scope.Unjoined { columns } :=
  .intro (by rintro _ ⟨⟩) h (List.forall_mem_nil _)

lemma unjoined_computed {f : Fragment} (h : f.Unjoined) :
    Scope.Unjoined { doc := some (.computed f) } := by
  refine .intro ?_ (List.forall_mem_nil _) (List.forall_mem_nil _)
  rintro _ ⟨⟩
  exact List.forall_mem_singleton.2 h

lemma unjoined_wrapped (s : Scope) (label data : String) : (s.wrapped label data).Unjoined := by
  rw [Unjoined, texts_wrapped]
  exact List.forall_mem_nil _

lemma Unjoined.compute (h : s.Unjoined) {c : Computed} (hc : c.value.Unjoined) :
    (s.compute c).Unjoined := by
  refine .intro (fun _ => h.doc) (fun _ => h.column) ?_
  refine List.forall_mem_append.2 ⟨fun c' hc' => ?_, List.forall_mem_singleton.2 hc⟩
  exact h.computed (List.mem_filter.1 hc').1

lemma Unjoined.foldl_compute (h : s.Unjoined) {added : List Computed}
    (hadded : ∀ c ∈ added, c.value.Unjoined) : (added.foldl Scope.compute s).Unjoined := by
  induction added generalizing s with
  | nil => exact h
  | cons c added ih =>
    obtain ⟨hc, hrest⟩ := List.forall_mem_cons.1 hadded
    exact ih (h.compute hc) hrest

lemma Unjoined.entries (h : s.Unjoined) : ∀ e ∈ s.entries, e.value.Unjoined := by
  intro e he
  rcases List.mem_append.1 (Entry.mem_of_mem_distinct he) with he | he
  · obtain ⟨c, hc, rfl⟩ := List.mem_map.1 he
    have htexts := h.column hc
    unfold Column.texts at htexts
    unfold Entry.ofColumn
    split
    · exact unjoined_column _ _
    · next value hvalue =>
      rw [hvalue] at htexts
      exact htexts value List.mem_cons_self
  rcases List.mem_append.1 he with he | he
  · rcases List.mem_append.1 he with he | he
    · obtain ⟨c, hc, rfl⟩ := List.mem_map.1 he
      exact h.computed hc
    · obtain ⟨l, -, rfl⟩ := List.mem_map.1 he
      exact unjoined_column _ _
  · obtain ⟨u, -, he⟩ := List.mem_flatMap.1 he
    unfold Entry.ofUnwound at he
    split at he
    · obtain rfl := List.mem_singleton.1 he
      exact unjoined_column _ _
    · rcases List.mem_cons.1 he with rfl | he
      · exact unjoined_column _ _
      · obtain rfl := List.mem_singleton.1 he
        exact unjoined_positionOf _

end Scope

/-! ## Drafts -/

namespace Draft

variable {b : Draft} {env : Env}

/-- The texts of the row have no joints, and the conditions on rows and on groups keep together. -/
structure WellJoined (b : Draft) : Prop where
  row : b.scope.Unjoined
  filters : ∀ c ∈ b.query.filters, c.WellJoined
  having : ∀ c ∈ b.query.having, c.WellJoined

lemma wellJoined_ofSource {source : Source} {scope : Scope} {ctes : List Cte}
    (h : scope.Unjoined) : (ofSource source scope ctes).WellJoined :=
  ⟨h, List.forall_mem_nil _, List.forall_mem_nil _⟩

lemma WellJoined.withScope (hb : b.WellJoined) {scope : Scope} (h : scope.Unjoined) :
    (b.withScope scope).WellJoined :=
  ⟨h, hb.filters, hb.having⟩

lemma WellJoined.filter (hb : b.WellJoined) {c : Condition} (hc : c.WellJoined) :
    (b.filter c).WellJoined :=
  ⟨hb.row, List.forall_mem_append.2 ⟨hb.filters, List.forall_mem_singleton.2 hc⟩, hb.having⟩

lemma WellJoined.filterGroups (hb : b.WellJoined) {c : Condition} (hc : c.WellJoined) :
    (b.filterGroups c).WellJoined :=
  ⟨hb.row, hb.filters, List.forall_mem_append.2 ⟨hb.having, List.forall_mem_singleton.2 hc⟩⟩

lemma WellJoined.requireRows (hb : b.WellJoined) : b.requireRows.WellJoined :=
  hb.filterGroups (Condition.wellJoined_relation (by decide) (by decide))

lemma WellJoined.grouping (hb : b.WellJoined) (terms : List Fragment) {columns : List Column}
    (h : ∀ c ∈ columns, c.Unjoined) : (b.grouping terms columns).WellJoined :=
  ⟨Scope.unjoined_columns h, hb.filters, hb.having⟩

lemma wellJoined_around (b : Draft) (env : Env) (label : String) :
    (b.around env label).WellJoined :=
  wellJoined_ofSource (b.scope.unjoined_wrapped label env.dataColumn)

lemma wellJoined_rewrapped (b : Draft) (env : Env) (label : String) :
    (b.rewrapped env label).WellJoined := by
  obtain ⟨hrow, hfilters, hhaving⟩ := wellJoined_around b env label
  exact ⟨hrow, hfilters, hhaving⟩

lemma yields_wellJoined_wrapIf (hb : b.WellJoined) (needed : Bool) :
    (b.wrapIf needed).Yields env WellJoined := by
  cases needed with
  | false => exact yields_pure hb
  | true =>
    refine (yields_rewrapped b).imp ?_
    rintro _ ⟨label, rfl⟩
    exact wellJoined_rewrapped b env label

lemma yields_wellJoined_groupingReady (hb : b.WellJoined) :
    b.groupingReady.Yields env WellJoined := by
  refine (yields_groupingReady_cases b).imp ?_
  rintro _ (⟨-, rfl⟩ | ⟨-, label, rfl⟩)
  · exact hb
  · exact wellJoined_around b env label

lemma WellJoined.render_json (hb : b.WellJoined) (e : Expr) :
    (b.render e.json).Yields env fun x => x.1.Unjoined :=
  yields_within (yields_json (yields_unjoined hb.row e .json))

/-! ## Filters -/

/-- Can conditions be added to the query itself, be it on rows or on groups? -/
def takesFilters (b : Draft) : Bool :=
  !b.windowed && !b.query.rows.isLimited

/-- The draft with one more condition, on its groups if it has some. -/
def restrict (b : Draft) (c : Condition) : Draft :=
  if b.grouped then b.filterGroups c else b.filter c

/-- The draft that is restricted: the current one if it takes filters, else the one around it. -/
def Restricts (env : Env) (b b₀ : Draft) : Prop :=
  b.takesFilters = true ∧ b₀ = b ∨ b.takesFilters = false ∧ ∃ label, b₀ = b.rewrapped env label

lemma Restricts.takesFilters {b₀ : Draft} (h : Restricts env b b₀) : b₀.takesFilters = true := by
  rcases h with ⟨hb, rfl⟩ | ⟨-, label, rfl⟩
  · exact hb
  · rfl

lemma Restricts.wellJoined {b₀ : Draft} (h : Restricts env b b₀) (hb : b.WellJoined) :
    b₀.WellJoined := by
  rcases h with ⟨-, rfl⟩ | ⟨-, label, rfl⟩
  · exact hb
  · exact wellJoined_rewrapped b env label

protected lemma WellJoined.restrict (hb : b.WellJoined) {c : Condition} (hc : c.WellJoined) :
    (b.restrict c).WellJoined := by
  unfold Draft.restrict
  split
  · exact hb.filterGroups hc
  · exact hb.filter hc

/-- Nothing but the conditions changes. -/
lemma restrict_keeps (b : Draft) (c : Condition) : (b.restrict c).scope = b.scope ∧
    (b.restrict c).grouped = b.grouped ∧ (b.restrict c).takesFilters = b.takesFilters := by
  unfold restrict
  split
  · exact ⟨rfl, rfl, rfl⟩
  · exact ⟨rfl, rfl, rfl⟩

lemma yields_decides (b : Draft) (e : Expr) :
    (b.render e.condition).Yields env (e.Decides { env with scope := b.scope }) := by
  intro s c s' hrun
  exact ⟨s, s', hrun⟩

/-- A filter adds the condition of its test. -/
lemma yields_restrict (b : Draft) (test : Expr) :
    (b.filterStage test).Yields env fun b' => ∃ b₀ c, Restricts env b b₀ ∧
      test.Decides { env with scope := b₀.scope } c ∧ b' = b₀.restrict c := by
  unfold filterStage
  refine yields_ite (fun hgroups => ?_) fun hgroups => ?_
  · rw [Bool.and_assoc, Bool.and_eq_true_iff] at hgroups
    obtain ⟨hgrouped, htakes⟩ := hgroups
    refine yields_bind (yields_decides b test) fun c hc => yields_pure ?_
    exact ⟨b, c, .inl ⟨htakes, rfl⟩, hc, (if_pos hgrouped).symm⟩
  · rw [Bool.and_assoc, Bool.not_eq_true] at hgroups
    unfold rowsReady acceptsRows
    rw [Bool.and_assoc]
    -- A draft that takes filters has no groups here, and one that does not is wrapped.
    cases htakes : b.takesFilters with
    | true =>
      have hgrouped : b.grouped = false := by
        rw [← Bool.and_true b.grouped, ← htakes]
        exact hgroups
      rw [takesFilters] at htakes
      rw [hgrouped, htakes]
      refine yields_bind (P := fun b₀ => b₀ = b) (yields_pure rfl) ?_
      rintro b rfl
      refine yields_bind (yields_decides b test) fun c hc => yields_pure ?_
      exact ⟨b, c, .inl ⟨htakes, rfl⟩, hc, (if_neg (ne_true_of_eq_false hgrouped)).symm⟩
    | false =>
      rw [takesFilters] at htakes
      rw [htakes, Bool.and_false]
      refine yields_bind (yields_rewrapped b) ?_
      rintro _ ⟨label, rfl⟩
      refine yields_bind (yields_decides _ test) fun c hc => yields_pure ?_
      exact ⟨b.rewrapped env label, c, .inr ⟨htakes, label, rfl⟩, hc, rfl⟩

/-! ## Stages -/

lemma yields_wellJoined_lookupStage (hb : b.WellJoined) (l : Lookup) :
    (b.lookupStage l).Yields env WellJoined := by
  refine yields_bind (yields_wellJoined_wrapIf hb _) fun b₀ h₀ => ?_
  refine yields_then fun label => yields_then fun inner => yields_then fun env' => yields_pure ?_
  exact ⟨h₀.row, h₀.filters, h₀.having⟩

lemma yields_wellJoined_unwindStage (hb : b.WellJoined) (u : Unwind) :
    (b.unwindStage u).Yields env WellJoined := by
  refine yields_bind (yields_wellJoined_wrapIf hb _) fun b₀ h₀ => yields_then fun env' => ?_
  split
  · exact yields_unsupported _
  · exact yields_then fun label => yields_pure ⟨h₀.row, h₀.filters, h₀.having⟩

lemma yields_wellJoined_redactStage (hb : b.WellJoined) (decision : Expr) :
    (b.redactStage decision).Yields env WellJoined := by
  refine yields_then fun _ => yields_bind (yields_wellJoined_wrapIf hb _) fun b₀ h₀ => ?_
  refine yields_then fun value => yields_pure (h₀.filter ?_)
  exact Condition.wellJoined_relation (compact_call rfl).unjoined (Compact.token rfl).unjoined

lemma yields_wellJoined_graphStage (hb : b.WellJoined) (g : GraphLookup) :
    (b.graphStage g).Yields env WellJoined := by
  refine yields_then fun _ => yields_bind (yields_wellJoined_wrapIf hb _) fun b₀ h₀ => ?_
  refine yields_then fun start => yields_then fun cte => yields_then fun walk => ?_
  refine yields_then fun _ => yields_then fun ranked => yields_then fun label => ?_
  exact yields_then fun env' => yields_pure ⟨h₀.row, h₀.filters, h₀.having⟩

lemma yields_wellJoined_includeFields (hb : b.WellJoined) (fields : List (Path × ProjectField)) :
    (b.includeFields fields).Yields env WellJoined := by
  unfold includeFields
  refine yields_bind (yields_mapM_forall (Q := Column.Unjoined) ?_) fun columns hcolumns => ?_
  · rintro ⟨name, e⟩ -
    exact yields_bind (hb.render_json e) fun x hx => yields_pure (Column.unjoined_output hx)
  · exact yields_pure (hb.withScope (Scope.unjoined_columns hcolumns.2))

lemma yields_wellJoined_excludeFields (hb : b.WellJoined) (names : List Path) (stage : String) :
    (b.excludeFields names stage).Yields env WellJoined := by
  have hdoc {args : List Fragment} :
      (b.withScope { doc := some (.computed (call "JSON_TRANSFORM" args)) }).WellJoined :=
    hb.withScope (Scope.unjoined_computed (compact_call rfl).unjoined)
  unfold excludeFields
  refine yields_ite (fun _ => yields_read ?_) fun _ => yields_pure (hb.withScope ?_)
  · refine yields_ite (fun _ => yields_then fun _ => ?_) fun _ => ?_
    · exact yields_pure hdoc
    · exact yields_pure hdoc
  · refine Scope.unjoined_columns fun c hc => ?_
    obtain ⟨e, he, rfl⟩ := List.mem_map.1 hc
    exact Column.unjoined_output (hb.row.entries e (List.mem_filter.1 he).1)

lemma yields_wellJoined_projectStage (hb : b.WellJoined) (fields : List (Path × ProjectField)) :
    (b.projectStage fields).Yields env WellJoined := by
  refine yields_bind (yields_wellJoined_wrapIf hb _) fun b₀ h₀ => ?_
  split
  · exact yields_wellJoined_includeFields h₀ _
  · exact yields_wellJoined_excludeFields h₀ _ _

lemma yields_wellJoined_addFieldsStage (hb : b.WellJoined) (fields : List (Path × Expr)) :
    (b.addFieldsStage fields).Yields env WellJoined := by
  refine yields_bind (yields_wellJoined_wrapIf hb _) fun b₀ h₀ => ?_
  refine yields_bind (yields_mapM_forall (Q := fun c : Computed => c.value.Unjoined) ?_) ?_
  · rintro ⟨name, e⟩ -
    exact yields_bind (h₀.render_json e) fun x hx => yields_pure hx
  · exact fun added hadded => yields_pure (h₀.withScope (h₀.row.foldl_compute hadded.2))

lemma yields_wellJoined_windowStage (hb : b.WellJoined) (spec : WindowFields) :
    (b.windowStage spec).Yields env WellJoined := by
  refine yields_bind (yields_wellJoined_wrapIf hb _) fun b₀ h₀ => yields_then fun partition => ?_
  refine yields_bind (yields_mapM_forall (Q := fun c : Computed => c.value.Unjoined) ?_) ?_
  · rintro ⟨name, out⟩ -
    refine yields_bind (P := Fragment.Unjoined) ?_ fun f hf => yields_pure hf
    exact yields_within (yields_unjoined_windowFunction h₀.row)
  · intro added hadded
    exact yields_pure ⟨h₀.row.foldl_compute hadded.2, h₀.filters, h₀.having⟩

/-! ## Groups -/

lemma unjoined_countColumn (name : Path) : (countColumn name).Unjoined :=
  Column.unjoined_output (by decide)

lemma unjoined_idColumn {id : Fragment} (h : id.Unjoined) (json : Bool) :
    (idColumn id json).Unjoined :=
  Column.unjoined_output h

lemma yields_unjoined_accumulatorColumns (stage : String) (outputs : List (Path × Expr)) :
    (accumulatorColumns stage outputs).Yields env fun columns => ∀ c ∈ columns, c.Unjoined := by
  refine (yields_mapM_forall (Q := Column.Unjoined) ?_).imp fun columns h => h.2
  rintro ⟨name, e⟩ -
  dsimp only
  split
  · exact yields_bind yields_unjoined_aggregate fun x hx => yields_pure (Column.unjoined_output hx)
  · exact yields_fault _

lemma yields_unjoined_bucketColumns (stage : String) (outputs : List (Path × Expr)) :
    (bucketColumns stage outputs).Yields env fun columns => ∀ c ∈ columns, c.Unjoined := by
  refine yields_ite (fun _ => yields_pure ?_) fun _ => yields_unjoined_accumulatorColumns _ _
  exact List.forall_mem_singleton.2 (unjoined_countColumn _)

lemma yields_unjoined_groupKey (h : env.scope.Unjoined) (id : Option Expr) :
    (groupKey id).Yields env fun key => key.id.Unjoined := by
  have hrow : ({ env with inline := true } : Env).scope.Unjoined := h
  refine yields_inlined ?_
  split
  · exact yields_pure (Compact.token rfl).unjoined
  · exact yields_bind yields_compact_literal fun f hf => yields_pure hf.unjoined
  · exact yields_then fun parts => yields_pure compact_object.unjoined
  · exact yields_then fun parts => yields_pure compact_object.unjoined
  · next e _ _ _ =>
    exact yields_bind (yields_unjoined hrow e (.scalar none)) fun f hf => yields_pure hf

lemma yields_wellJoined_groupStage (hb : b.WellJoined) (g : Group) :
    (b.groupStage g).Yields env WellJoined := by
  refine yields_bind (yields_wellJoined_groupingReady hb) fun b₀ h₀ => ?_
  refine yields_bind (yields_within (yields_unjoined_groupKey h₀.row g.id)) fun key hkey => ?_
  refine yields_bind (yields_within (yields_unjoined_accumulatorColumns _ _)) ?_
  refine fun columns hcolumns => yields_pure (WellJoined.grouping ?_ _ ?_)
  · split
    · exact h₀.requireRows
    · exact h₀
  · exact List.forall_mem_cons.2 ⟨unjoined_idColumn hkey _, hcolumns⟩

lemma yields_wellJoined_between {subject : Fragment} (h : subject.Unjoined) (low high : Literal) :
    (between subject low high).Yields env Condition.WellJoined := by
  refine yields_bind yields_compact_literal fun l hl => ?_
  refine yields_bind yields_compact_literal fun u hu => yields_pure ?_
  exact Condition.wellJoined_both (Condition.wellJoined_relation h hl.unjoined)
    (Condition.wellJoined_relation h hu.unjoined)

lemma yields_bucketKey_wellJoined (h : env.scope.Unjoined) (spec : Bucket) (numeric asText : Bool) :
    (bucketKey spec numeric asText).Yields env fun key =>
      key.id.Unjoined ∧ key.inRange.WellJoined := by
  have hrow : ({ env with inline := true } : Env).scope.Unjoined := h
  have hsubject : (bucketSubject spec numeric).Yields { env with inline := true }
      Fragment.Unjoined := by
    unfold bucketSubject
    split
    · exact yields_unjoined hrow spec.groupBy (.scalar _)
    · exact yields_unjoined hrow spec.groupBy (.scalar _)
  refine yields_inlined (yields_bind hsubject fun subject hsubject => ?_)
  refine yields_then fun found => yields_then fun branches => yields_then fun default => ?_
  refine yields_bind (yields_wellJoined_between hsubject _ _) fun inRange hrange => yields_pure ?_
  exact ⟨Compact.cases.unjoined, hrange⟩

lemma yields_wellJoined_bucketStage (hb : b.WellJoined) (spec : Bucket) :
    (b.bucketStage spec).Yields env WellJoined := by
  refine yields_bind (yields_wellJoined_groupingReady hb) fun b₀ h₀ => yields_warn_if ?_
  refine yields_bind (yields_within (yields_bucketKey_wellJoined h₀.row _ _ _)) fun key hkey => ?_
  refine yields_bind (yields_within (yields_unjoined_bucketColumns _ _)) fun columns hcolumns => ?_
  have hready : (if spec.default.isNone then b₀.filter key.inRange else b₀).WellJoined := by
    split
    · exact h₀.filter hkey.2
    · exact h₀
  have hgroups := hready.grouping [key.id]
    (List.forall_mem_cons.2 ⟨unjoined_idColumn hkey.1 false, hcolumns⟩)
  exact yields_pure ⟨hgroups.row, hgroups.filters, hgroups.having⟩

lemma yields_wellJoined_bucketAutoStage (b : Draft) (spec : BucketAuto) :
    (b.bucketAutoStage spec).Yields env WellJoined := by
  refine yields_then fun _ => yields_then fun _ => yields_then fun b₀ => ?_
  refine yields_then fun subject => yields_bind (yields_wrapAs _) ?_
  rintro _ ⟨label, rfl⟩
  refine yields_bind (yields_within (yields_unjoined_bucketColumns _ _)) fun columns hcolumns => ?_
  have hbounds : (bucketBounds label).Unjoined := (compact_call rfl).unjoined
  have hgroups := (wellJoined_around (b₀.numbered spec.buckets subject) env label).grouping
    [column label "bucket"] (List.forall_mem_cons.2 ⟨unjoined_idColumn hbounds true, hcolumns⟩)
  exact yields_pure ⟨hgroups.row, hgroups.filters, hgroups.having⟩

/-- Every stage leaves a draft whose texts keep together. -/
lemma yields_wellJoined_stage (hb : b.WellJoined) (s : Stage) :
    (stage s b).Yields env WellJoined := by
  cases s with
  | filter test =>
    rw [stage]
    refine (yields_restrict b test).imp ?_
    rintro _ ⟨b₀, c, hb₀, hc, rfl⟩
    have h₀ := hb₀.wellJoined hb
    exact h₀.restrict (hc.readsBack h₀.row).1
  | sort keys hint =>
    rw [stage]
    refine yields_bind (yields_wellJoined_wrapIf hb _) fun b₀ h₀ => yields_then fun env' => ?_
    exact yields_pure ⟨h₀.row, h₀.filters, h₀.having⟩
  | limit n =>
    rw [stage]
    exact yields_pure ⟨hb.row, hb.filters, hb.having⟩
  | skip n =>
    rw [stage]
    exact yields_pure ⟨hb.row, hb.filters, hb.having⟩
  | sample n =>
    rw [stage]
    refine yields_bind (yields_wellJoined_wrapIf hb _) fun b₀ h₀ => yields_pure ?_
    exact ⟨h₀.row, h₀.filters, h₀.having⟩
  | lookup spec => rw [stage]; exact yields_wellJoined_lookupStage hb spec
  | lookupPipeline => rw [stage]; exact yields_unsupported _
  | unwind spec => rw [stage]; exact yields_wellJoined_unwindStage hb spec
  | redact decision => rw [stage]; exact yields_wellJoined_redactStage hb decision
  | project fields => rw [stage]; exact yields_wellJoined_projectStage hb fields
  | addFields fields => rw [stage]; exact yields_wellJoined_addFieldsStage hb fields
  | unset names =>
    rw [stage]
    refine yields_bind (yields_wellJoined_wrapIf hb _) fun b₀ h₀ => ?_
    exact yields_wellJoined_excludeFields h₀ names _
  | replaceRoot root =>
    rw [stage]
    refine yields_bind (yields_wellJoined_wrapIf hb _) fun b₀ h₀ => ?_
    refine yields_bind (h₀.render_json root) fun x hx => yields_pure ?_
    exact h₀.withScope (Scope.unjoined_computed hx)
  | group spec => rw [stage]; exact yields_wellJoined_groupStage hb spec
  | count field =>
    rw [stage]
    refine yields_bind (yields_wellJoined_groupingReady hb) fun b₀ h₀ => yields_pure ?_
    exact h₀.requireRows.grouping _ (List.forall_mem_singleton.2 (unjoined_countColumn field))
  | bucket spec => rw [stage]; exact yields_wellJoined_bucketStage hb spec
  | bucketAuto spec => rw [stage]; exact yields_wellJoined_bucketAutoStage b spec
  | windowFields spec => rw [stage]; exact yields_wellJoined_windowStage hb spec
  | graphLookup spec => rw [stage]; exact yields_wellJoined_graphStage hb spec
  | facet facets =>
    rw [stage]
    refine yields_then fun name => yields_then fun query => yields_then fun _ => ?_
    refine yields_then fun entries => yields_pure (wellJoined_ofSource ?_)
    exact Scope.unjoined_computed compact_object.unjoined
  | unionWith source nested =>
    refine (yields_unionStage b source nested).imp ?_
    rintro _ ⟨_, _, _, _, rfl⟩
    exact wellJoined_ofSource (Scope.unjoined_document _ _)
  | merge spec => rw [stage]; exact yields_fault _
  | out spec => rw [stage]; exact yields_fault _

/-- In every draft of a compilation the texts keep together. -/
lemma Reachable.wellJoined (h : b.Reachable) : b.WellJoined := by
  refine h.invariant (fun _ _ _ _ => ?_) (fun _ input _ _ => ?_) fun s b env _ hb => ?_
  · exact yields_then fun _ => yields_pure (wellJoined_ofSource (Scope.unjoined_document _ _))
  · refine yields_then fun _ => yields_then fun _ => yields_pure ?_
    exact wellJoined_ofSource (input.unjoined_wrapped _ _)
  · exact yields_wellJoined_stage hb s

end Draft

/-! ## Clauses -/

namespace Condition

/-- What a clause of conditions is read as. Without conditions there is no clause. -/
def clause (cs : List Condition) : List Conjunct :=
  ((conjunction? cs).map Fragment.conjuncts).getD []

lemma clause_eq {cs : List Condition} (h : ∀ c ∈ cs, c.WellJoined) :
    clause cs = cs.flatMap conjuncts := by
  cases hcs : conjunction? cs with
  | none =>
    cases cs with
    | nil => rfl
    | cons c cs => cases hcs
  | some f =>
    rw [clause, hcs]
    exact (conjuncts_of_conjunction? h hcs).2

/-- Further conditions are read after the others. -/
lemma clause_append {cs ds : List Condition} (hcs : ∀ c ∈ cs, c.WellJoined)
    (hds : ∀ c ∈ ds, c.WellJoined) : clause (cs ++ ds) = clause cs ++ ds.flatMap conjuncts := by
  rw [clause_eq (List.forall_mem_append.2 ⟨hcs, hds⟩), clause_eq hcs, List.flatMap_append]

end Condition

/-- Conditions of several expressions are read as their conjunction. -/
lemma mirrors_and_of_forall₂ {env : Env} {es : List Expr} {cs : List Condition}
    (h : List.Forall₂ (Expr.ReadsBack env) es cs) :
    Mirrors env (.logic .and es) (cs.flatMap Condition.conjuncts) :=
  .and (mirrors_of_forall₂ h).2

namespace Draft

variable {b : Draft} {env : Env}

/-- What the filters of a draft are rendered with. -/
def filtering (env : Env) (b : Draft) : Env :=
  { env with scope := b.scope, stage := some "$match" }

/-- Filters one after another add their conditions to one query. -/
lemma yields_foldl_restrict (hb : b.takesFilters = true) (tests : List Expr) :
    (stages (tests.map .filter) b).Yields env fun b' => ∃ cs,
      List.Forall₂ (Expr.Decides (filtering env b)) tests cs ∧ b' = cs.foldl restrict b := by
  induction tests generalizing b with
  | nil =>
    rw [List.map_nil, stages]
    exact yields_pure ⟨[], .nil, rfl⟩
  | cons test tests ih =>
    rw [List.map_cons, stages, stage]
    refine yields_bind (yields_inStage (yields_restrict b test)) ?_
    rintro _ ⟨b₀, c, hb₀, hc, rfl⟩
    -- A filter leaves the draft open to the next one, so it is never wrapped on the way.
    rcases hb₀ with ⟨-, rfl⟩ | ⟨hnot, -⟩
    · obtain ⟨hscope, -, htakes⟩ := restrict_keeps b₀ c
      refine (ih (htakes.trans hb)).imp ?_
      rintro _ ⟨cs, hcs, rfl⟩
      rw [filtering, hscope] at hcs
      exact ⟨c :: cs, .cons hc hcs, rfl⟩
    · rw [hb] at hnot
      cases hnot

/-- Filters one after another add their conditions to the current query or to one around it. -/
lemma yields_filters (b : Draft) (tests : List Expr) :
    (stages (tests.map .filter) b).Yields env fun b' => ∃ b₀ cs,
      (b₀ = b ∨ Restricts { env with stage := some "$match" } b b₀) ∧
      List.Forall₂ (Expr.Decides (filtering env b₀)) tests cs ∧ b' = cs.foldl restrict b₀ := by
  cases tests with
  | nil =>
    rw [List.map_nil, stages]
    exact yields_pure ⟨b, [], .inl rfl, .nil, rfl⟩
  | cons test tests =>
    rw [List.map_cons, stages, stage]
    refine yields_bind (yields_inStage (yields_restrict b test)) ?_
    rintro _ ⟨b₀, c, hb₀, hc, rfl⟩
    obtain ⟨hscope, -, htakes⟩ := restrict_keeps b₀ c
    refine (yields_foldl_restrict (htakes.trans hb₀.takesFilters) tests).imp ?_
    rintro _ ⟨cs, hcs, rfl⟩
    rw [filtering, hscope] at hcs
    exact ⟨b₀, c :: cs, .inr hb₀, .cons hc hcs, rfl⟩

/-- The conditions of filters stand after the others, on the groups if there are some. -/
lemma filters_foldl_restrict (b : Draft) (cs : List Condition) :
    (cs.foldl restrict b).query.filters = b.query.filters ++ (if b.grouped then [] else cs) ∧
      (cs.foldl restrict b).query.having = b.query.having ++ (if b.grouped then cs else []) := by
  induction cs generalizing b with
  | nil => simp
  | cons c cs ih =>
    obtain ⟨hfilters, hhaving⟩ := ih (b.restrict c)
    rw [List.foldl_cons, hfilters, hhaving, (restrict_keeps b c).2.1]
    cases hgrouped : b.grouped with
    | true => simp [restrict, hgrouped, filterGroups]
    | false => simp [restrict, hgrouped, filter]

/-- The clauses read as before, with the tree of the filters after that. -/
lemma WellJoined.clauses_foldl_restrict (hb : b.WellJoined) {tests : List Expr}
    {cs : List Condition} (h : List.Forall₂ (Expr.Decides (filtering env b)) tests cs) :
    ∃ t, Mirrors (filtering env b) (.logic .and tests) t ∧
      Condition.clause (cs.foldl restrict b).query.filters =
        Condition.clause b.query.filters ++ (if b.grouped then [] else t) ∧
      Condition.clause (cs.foldl restrict b).query.having =
        Condition.clause b.query.having ++ (if b.grouped then t else []) := by
  have hrow : (filtering env b).scope.Unjoined := hb.row
  have hback := h.imp fun e c hc => hc.readsBack hrow
  obtain ⟨hwell, -⟩ := mirrors_of_forall₂ hback
  obtain ⟨hfilters, hhaving⟩ := filters_foldl_restrict b cs
  refine ⟨cs.flatMap Condition.conjuncts, mirrors_and_of_forall₂ hback, ?_⟩
  rw [hfilters, hhaving]
  cases b.grouped with
  | true =>
    refine ⟨?_, Condition.clause_append hb.having hwell⟩
    exact Condition.clause_append hb.filters (List.forall_mem_nil _)
  | false =>
    refine ⟨Condition.clause_append hb.filters hwell, ?_⟩
    exact Condition.clause_append hb.having (List.forall_mem_nil _)

end Draft

/-! ## Recursive lookups -/

namespace GraphLookup

variable {env : Env}

/-- What a condition on foreign documents is rendered with. -/
def foreign (env : Env) (label : String) : Env :=
  { env with scope := .document label env.dataColumn }

/-- The bound on the number of steps, if there is one. -/
def bounds (g : GraphLookup) (here : String) : List Condition :=
  g.maxDepth.toList.map fun (n : Nat) => .relation .lt (column here depthColumn) (int n)

lemma wellJoined_bounds (g : GraphLookup) (here : String) : ∀ c ∈ g.bounds here, c.WellJoined := by
  intro c hc
  obtain ⟨n, -, rfl⟩ := List.mem_map.1 hc
  exact Condition.wellJoined_relation (unjoined_column _ _) (Compact.token rfl).unjoined

lemma yields_restriction (g : GraphLookup) (label : String) :
    (g.restriction label).Yields env
      (List.Forall₂ (Expr.ReadsBack (foreign env label)) g.restrict.toList) := by
  have hrow : (foreign env label).scope.Unjoined := Scope.unjoined_document _ _
  unfold restriction
  refine yields_read ?_
  cases g.restrict with
  | none => exact yields_pure .nil
  | some e =>
    refine yields_bind (P := fun c => ∃ c', c = some c' ∧ e.ReadsBack (foreign env label) c') ?_ ?_
    · refine yields_bind (yields_within (yields_readsBack hrow e)) fun c hc => ?_
      exact yields_pure ⟨c, rfl, hc⟩
    · rintro _ ⟨c, rfl, hc⟩
      exact yields_pure (.cons hc .nil)

/-- The conditions of a walk read as the tree of its restriction, after the bound on its steps. -/
lemma yields_clauses_walk (g : GraphLookup) (name : String) :
    (g.walk name).Yields env fun cte => ∃ left right,
      cte.query.compound = some { left, operator := .union, all := true, right } ∧
      (∃ label, Mirrors (foreign env label) (.logic .and g.restrict.toList)
        (Condition.clause left.filters)) ∧
      ∃ here label t, Mirrors (foreign env label) (.logic .and g.restrict.toList) t ∧
        Condition.clause right.filters = (g.bounds here).flatMap Condition.conjuncts ++ t := by
  refine yields_bind (P := fun left => ∃ label, Mirrors (foreign env label)
    (.logic .and g.restrict.toList) (Condition.clause left.filters)) ?_ fun left hleft => ?_
  · refine yields_then fun label => yields_read ?_
    refine yields_bind (yields_restriction g label) fun cs hcs => yields_pure ⟨label, ?_⟩
    rw [Condition.clause_eq (mirrors_of_forall₂ hcs).1]
    exact mirrors_and_of_forall₂ hcs
  refine yields_bind (P := fun right => ∃ here label t, Mirrors (foreign env label)
    (.logic .and g.restrict.toList) t ∧
      Condition.clause right.filters = (g.bounds here).flatMap Condition.conjuncts ++ t) ?_ ?_
  · refine yields_then fun here => yields_then fun label => yields_read ?_
    refine yields_bind (yields_restriction g label) fun cs hcs => yields_pure ?_
    refine ⟨here, label, _, mirrors_and_of_forall₂ hcs, ?_⟩
    rw [← Condition.clause_eq (wellJoined_bounds g here)]
    exact Condition.clause_append (wellJoined_bounds g here) (mirrors_of_forall₂ hcs).1
  · intro right hright
    exact yields_pure ⟨left, right, rfl, hleft, hright⟩

end GraphLookup

/-! ## Compilations -/

namespace Draft

/-- The rows that conditions after a draft are rendered against: the one of the draft, the one of a
query around another, and a foreign document. -/
inductive Faces (b : Draft) : Scope → Prop where
  | own : Faces b b.scope
  | around {s : Scope} {label data : String} : Faces b (s.wrapped label data)
  | foreign {label data : String} : Faces b (.document label data)

lemma Faces.unjoined {b : Draft} (hb : b.WellJoined) {s : Scope} (h : b.Faces s) : s.Unjoined := by
  cases h with
  | own => exact hb.row
  | around => exact Scope.unjoined_wrapped _ _ _
  | foreign => exact Scope.unjoined_document _ _

/-- In every draft of a compilation,
- the condition of every expression has no `OR` outside its brackets and `NOT` only before operands,
  and it reads back as the tree of the expression,
- the names, constants and placeholders, which are read as they are, are printed without joints,
- the conditions of the `WHERE` and of the `HAVING` clause are read one after another,
- filters add the tree of their conjunction to one of the clauses and leave the other,
- the conditions of a recursive lookup read as its restriction. -/
theorem reachable_conditions_read_back {b : Draft} (h : b.Reachable) :
    (∀ env : Env, b.Faces env.scope → ∀ e c, e.Decides env c →
      c.WellJoined ∧ Mirrors env e c.conjuncts) ∧
    (∀ (t : Token) (d : Dialect) (layout : Layout), t.isSolid = true →
      (text (t.print d layout)).Jointless) ∧
    (∀ cs ∈ [b.query.filters, b.query.having], ∀ f ∈ Condition.conjunction? cs,
      f.WellJoined ∧ f.conjuncts = cs.flatMap Condition.conjuncts) ∧
    (∀ (env : Env) (tests : List Expr), (stages (tests.map .filter) b).Yields env fun b' =>
      ∃ b₀ t, (b₀ = b ∨ Restricts { env with stage := some "$match" } b b₀) ∧
        Mirrors (filtering env b₀) (.logic .and tests) t ∧
        Condition.clause b'.query.filters =
          Condition.clause b₀.query.filters ++ (if b₀.grouped then [] else t) ∧
        Condition.clause b'.query.having =
          Condition.clause b₀.query.having ++ (if b₀.grouped then t else [])) ∧
    ∀ (env : Env) (g : GraphLookup) (name : String), (g.walk name).Yields env fun cte =>
      ∃ left right, cte.query.compound = some { left, operator := .union, all := true, right } ∧
        (∃ label, Mirrors (GraphLookup.foreign env label) (.logic .and g.restrict.toList)
          (Condition.clause left.filters)) ∧
        ∃ here label t,
          Mirrors (GraphLookup.foreign env label) (.logic .and g.restrict.toList) t ∧
          Condition.clause right.filters = (g.bounds here).flatMap Condition.conjuncts ++ t := by
  have hb := h.wellJoined
  refine ⟨fun env hrow e c hc => hc.readsBack (hrow.unjoined hb),
    fun t d layout ht => t.jointless_print d layout ht, ?_, fun env tests => ?_,
    fun env g name => g.yields_clauses_walk name⟩
  · refine List.forall_mem_cons.2 ⟨fun f hf => ?_, List.forall_mem_singleton.2 fun f hf => ?_⟩
    · exact Condition.conjuncts_of_conjunction? hb.filters hf
    · exact Condition.conjuncts_of_conjunction? hb.having hf
  · refine (yields_filters b tests).imp ?_
    rintro _ ⟨b₀, cs, hb₀, hcs, rfl⟩
    have hwell : b₀.WellJoined := by
      rcases hb₀ with rfl | hb₀
      · exact hb
      · exact hb₀.wellJoined hb
    obtain ⟨t, hmirrors, hfilters, hhaving⟩ := hwell.clauses_foldl_restrict hcs
    exact ⟨b₀, t, hb₀, hmirrors, hfilters, hhaving⟩

/-- A choice between two counts, one of them negated. -/
def eitherCount : Expr :=
  .logic .or [.compare .eq (.field { path := ⟨["n"]⟩ }) (.lit (.int 1)),
    .logic .not [.compare .lt (.field { path := ⟨["n"]⟩ }) (.lit (.int 5))]]

/-- A filter of counts goes into the `HAVING` clause, which has a condition already. -/
theorem counts_filtered_read_back : ∃ b : Draft, b.Reachable ∧ b.grouped = true ∧
    ∃ env e e' b', ((stages ([eitherCount].map .filter) b).run env).run e = .ok b' e' ∧
      ∃ b₀ t, (b₀ = b ∨ Restricts { env with stage := some "$match" } b b₀) ∧
        Mirrors (filtering env b₀) (.logic .and [eitherCount]) t ∧
        Condition.clause b'.query.filters =
          Condition.clause b₀.query.filters ++ (if b₀.grouped then [] else t) ∧
        Condition.clause b'.query.having =
          Condition.clause b₀.query.having ++ (if b₀.grouped then t else []) := by
  let env := Env.of { collection := "orders" } {}
  have hbase : ((ofCollection "orders" baseAlias []).run env).run {} = .ok _ _ := rfl
  have hcounts {b} (hb : b.Reachable) {b' e'}
      (h : ((stage (.count ⟨["n"]⟩) b).run env).run {} = .ok b' e') : b'.Reachable :=
    .stage hb h
  have hcount := hcounts (.collection hbase) rfl
  have hfilter := (reachable_conditions_read_back hcount).2.2.2.1 env [eitherCount]
  exact ⟨_, hcount, rfl, env, {}, _, _, rfl, hfilter rfl⟩

end Draft

end PipelineSql
