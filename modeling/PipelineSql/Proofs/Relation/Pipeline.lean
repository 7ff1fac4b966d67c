import Mathlib.Logic.Relation
import PipelineSql.Proofs.Relation.Stage
import PipelineSql.Compile

/-!
# Related pipelines

The recursion over the stages of a pipeline and its branches, and the statement around its last
draft.
-/

namespace PipelineSql

namespace Statement

/-- The subqueries in front of the query of a statement. -/
def ctes : Statement → List Cte
  | .query q | .insert _ _ q => q.ctes
  | .merge m => m.source.ctes

/-- A statement without the subqueries in front of its query. -/
def body : Statement → Statement
  | .query q => .query { q with ctes := [] }
  | .insert target columns q => .insert target columns { q with ctes := [] }
  | .merge m => .merge { m with source := { m.source with ctes := [] } }

end Statement

/-- Drafts with the stages that are left, one of which comes right after the other: after one more
stage, or at the start of a pipeline inside the next stage. -/
inductive Draft.Next (data : String) : List Stage × Draft → List Stage × Draft → Prop where
  | stage {s rest b c env e e'} : Env.dataColumn env = data →
    ((Draft.stage s b).run env).run e = .ok c e' → Next data (s :: rest, b) (rest, c)
  | facet {facets rest b f cte ctes c env e e'} : f ∈ facets → Env.dataColumn env = data →
    ((Draft.facetBranch cte (Draft.scope b) ctes).run env).run e = .ok c e' →
    Next data (.facet facets :: rest, b) (f.2, c)
  | union {source nested rest b label ctes c env e e'} : Env.dataColumn env = data →
    ((Draft.ofCollection source label ctes).run env).run e = .ok c e' →
    Next data (.unionWith source (some nested) :: rest, b) (nested, c)

namespace RenderLogic

open FragmentLogic

variable {L : RenderLogic} {b b' : Draft} {named : List (String × List String)}

/-- The row of a draft makes an accepted select list, also with the number and the key of a bucket
where these are about to be selected beside it. -/
structure Ready (L : RenderLogic) (ss : List Stage) (b : Draft) : Prop where
  selects : L.Selects L.data b.scope
  numbers : ∀ spec rest, ss = .bucketAuto spec :: rest → ∀ s, Rewrites L.data b.scope s →
    L.Numbers L.data s

/-- All drafts on the way through the stages are ready. -/
def Admits (L : RenderLogic) (ss : List Stage) (b : Draft) : Prop :=
  ∀ ⦃p⦄, Relation.ReflTransGen (Draft.Next L.data) (ss, b) p → L.Ready p.1 p.2

lemma Admits.ready {ss : List Stage} (h : L.Admits ss b) : L.Ready ss b :=
  h .refl

lemma Admits.selects {ss : List Stage} (h : L.Admits ss b) : L.Selects L.data b.scope :=
  h.ready.selects

lemma Admits.next {ss ss' : List Stage} {c : Draft} (h : L.Admits ss b)
    (hnext : Draft.Next L.data (ss, b) (ss', c)) : L.Admits ss' c :=
  fun _ hp => h (.head hnext hp)

/-- Where every list is accepted nothing has to be ready. -/
lemma admits_of_lists (h : ∀ columns, L.Lists columns) (ss : List Stage) (b : Draft) :
    L.Admits ss b :=
  fun _ _ => ⟨fun _ => h _, fun _ _ _ _ _ _ => h _⟩

/-! ## Recursive lookups -/

/-- A condition on foreign documents holds for any row that has them in sight. -/
lemma run_restriction {Δ : Ctx} {g : GraphLookup} {label : String}
    (hg : L.Covers (.graphLookup g)) (hs : ∀ column, Δ.Sees label column) :
    L.Keeps none (List.Forall₂ (L.Cond Δ)) (g.restriction label) := by
  refine L.bind L.read fun env env' henv => ?_
  rw [henv.dataColumn, henv.dataColumn']
  refine L.bind (run_optionMapM fun e he => L.within (by simp) (scopeRel_document (hs _))
    (run_condition (hg.values e (List.mem_cons_of_mem _ (Option.mem_toList.2 he)))))
    fun o o' ho => L.pure ?_
  cases ho with
  | none => exact .nil
  | some hc => exact .cons hc .nil

lemma itemsRel_row {Γ : Ctx} (g : GraphLookup) {start start' doc doc' depth depth' : Fragment}
    (hs : L.Rel Γ start start') (hd : L.Rel Γ doc doc') (hn : L.Rel Γ depth depth') :
    List.Forall₂ (L.ItemRel Γ) (g.row start doc depth) (g.row start' doc' depth') :=
  .cons (.mk hs) (.cons (.mk (rel_scalarAt hd)) (.cons (.mk hd)
    (.cons (.mk (rel_scalarAt hd)) (.cons (.mk hn) .nil))))

/-- The foreign collection is the same in related environments. -/
lemma table_eq {row : Option Ctx} {env env' : Env} (h : L.EnvRel L.data row env env')
    (g : GraphLookup) (label : String) : g.table env label = g.table env' label := by
  unfold GraphLookup.table
  rw [h.schema]

/-- The foreign collection is stored. -/
lemma sourceRel_foreign {Γ : Ctx} {g : GraphLookup} (hg : L.Covers (.graphLookup g)) (env : Env)
    (label : String) : L.SourceRel Γ (g.table env label) (g.table env label) :=
  sourceRel_table (.inl (hg.tables _ List.mem_cons_self))

lemma run_starts {g : GraphLookup} (hg : L.Covers (.graphLookup g)) :
    L.Keeps none (L.QueryRel named) g.starts := by
  unfold GraphLookup.starts
  refine run_alias fun label => L.bind L.read fun env env' henv => ?_
  rw [table_eq henv, henv.dataColumn, henv.dataColumn']
  have sees : ∀ column, Ctx.Sees { own := [⟨label, .stored env'.schema g.source⟩], named } label
      column :=
    fun _ => Ctx.sees_own (s := ⟨label, .stored env'.schema g.source⟩) List.mem_cons_self trivial
  have hdoc := rel_column (L := L.toFragmentLogic) (sees L.data)
  have hlist := hg.lists [none, none, some L.data, none, none] (by simp [Stage.lists])
  refine L.bind (run_restriction hg sees) fun cs cs' hcs => L.pure (queryRel_plain rfl rfl
    { selectRel_source (sourceRel_foreign hg _ _) with filters := hcs } hlist ?_)
  exact itemsRel_row g (rel_scalarAt hdoc) hdoc (rel_text _)

lemma run_steps {g : GraphLookup} (hg : L.Covers (.graphLookup g)) {cte : String}
    (hn : (cte, GraphLookup.columns) ∈ named) : L.Keeps none (L.QueryRel named) (g.steps cte) := by
  unfold GraphLookup.steps
  refine run_alias fun here => run_alias fun label => L.bind L.read fun env env' henv => ?_
  rw [table_eq henv, henv.dataColumn, henv.dataColumn']
  let Γ : Ctx := { own := [⟨here, .named cte⟩, ⟨label, .stored env'.schema g.source⟩], named }
  have sees : ∀ column, Γ.Sees label column :=
    fun _ => Ctx.sees_own (s := ⟨label, .stored env'.schema g.source⟩)
      (List.mem_cons_of_mem _ List.mem_cons_self) trivial
  have hdoc := rel_column (L := L.toFragmentLogic) (sees L.data)
  have hhere {column : String} (hc : column ∈ GraphLookup.columns) :
      L.Rel Γ (Fragment.column here column) (Fragment.column here column) :=
    rel_column (Ctx.sees_own (s := ⟨here, .named cte⟩) List.mem_cons_self ⟨_, hn, hc⟩)
  have hlist := hg.lists [some GraphLookup.startColumn, none, some L.data, none, none]
    (by simp [Stage.lists])
  refine L.bind (run_restriction hg sees) fun cs cs' hcs => L.pure (queryRel_plain rfl rfl
    { selectRel_source (sourceRel_table (.inr ⟨rfl, _, hn⟩)) with
      joins := .cons (joinRel_mk (sourceRel_foreign hg _ _) (.some
        (Cond.relation (rel_scalarAt hdoc) (hhere (by decide))))) .nil
      filters := List.rel_append ?_ hcs } hlist ?_)
  · cases g.maxDepth with
    | none => exact .nil
    | some n => exact .cons (Cond.relation (hhere (by decide)) (rel_int _)) .nil
  · exact itemsRel_row g (hhere (by decide)) hdoc (rel_append (hhere (by decide)) (rel_text _))

/-- The recursive subquery refers to itself. -/
lemma run_walk {g : GraphLookup} (hg : L.Covers (.graphLookup g))
    (named : List (String × List String)) {cte : String} (hname : Numbered "graph" cte) :
    L.Keeps none (fun w w' => L.CteRel (w.inSight named) w w' ∧
      w.signature = (cte, GraphLookup.columns)) (g.walk cte) := by
  let wider := (cte, GraphLookup.columns) :: named
  have hstarts : L.Keeps none (L.QueryRel wider) g.starts := run_starts hg
  have hn : (cte, GraphLookup.columns) ∈ wider := List.mem_cons_self
  refine L.bind hstarts fun left left' hl => L.bind (run_steps hg hn) fun right right' hr => ?_
  exact L.pure ⟨cteRel_mk hname (queryRel_compound hl hr), rfl⟩

lemma queryRel_ranked {g : GraphLookup} (hg : L.Covers (.graphLookup g)) {cte : String}
    (hn : (cte, GraphLookup.columns) ∈ named) :
    L.QueryRel named (GraphLookup.ranked cte) (GraphLookup.ranked cte) := by
  have hlist := hg.lists [some GraphLookup.startColumn, some GraphLookup.docColumn,
    some GraphLookup.depthColumn, some GraphLookup.rankColumn] (by simp [Stage.lists])
  unfold GraphLookup.ranked
  refine queryRel_plain rfl rfl { selectRel_source (sourceRel_table (.inr ⟨rfl, _, hn⟩)) with }
    hlist ?_
  refine .cons (.mk (rel_ident _)) (.cons (.mk (rel_ident _)) (.cons (.mk (rel_ident _))
    (.cons (.mk (rel_append (rel_rowNumberOver hg.windows) ?_)) .nil)))
  mono

lemma columns_ranked (cte : String) : (GraphLookup.ranked cte).columns =
    [GraphLookup.startColumn, GraphLookup.docColumn, GraphLookup.depthColumn,
      GraphLookup.rankColumn] := by
  simp [GraphLookup.ranked, Query.columns, SelectItem.named, SelectItem.column?, Fragment.ident,
    Fragment.ofToken]

lemma queryRel_graphCollected {g : GraphLookup} (hg : L.Covers (.graphLookup g)) {d d' : Dialect}
    (hd : L.Speaks d d') {cte : String} (label : String)
    (hn : (cte, GraphLookup.columns) ∈ named) :
    L.QueryRel named (g.collected d cte label) (g.collected d' cte label) := by
  let Γ : Ctx := { own := [⟨label, .columns (GraphLookup.ranked cte).columns⟩], named }
  have sees (column : String) (hc : column ∈ [GraphLookup.startColumn, GraphLookup.docColumn,
      GraphLookup.depthColumn, GraphLookup.rankColumn]) : Γ.Sees label column := by
    rw [← columns_ranked cte] at hc
    exact Ctx.sees_own (Γ := Γ) (s := ⟨label, .columns (GraphLookup.ranked cte).columns⟩)
      List.mem_cons_self hc
  have hdepth : List.Forall₂ (L.ComputedRel Γ)
      (g.depthField.map fun name =>
        (⟨name, Fragment.column label GraphLookup.depthColumn, false⟩ : Computed)).toList
      (g.depthField.map fun name =>
        (⟨name, Fragment.column label GraphLookup.depthColumn, false⟩ : Computed)).toList := by
    cases g.depthField with
    | none => exact .nil
    | some name => exact .cons (.mk (rel_column (sees _ (by decide)))) .nil
  have hscope := ScopeRel.computeAll hdepth
    (scopeRel_document (sees GraphLookup.docColumn (by decide)))
  have hstart := rel_column (L := L.toFragmentLogic)
    (sees GraphLookup.startColumn (by decide))
  have hsource := sourceRel_subquery (Γ := Γ) label (queryRel_ranked hg hn)
    (List.Subset.refl named)
  have hlist := hg.lists [some keyColumn, some docsColumn] (by simp [Stage.lists])
  refine queryRel_plain rfl rfl { selectRel_source hsource with
    filters := .cons (Cond.relation (rel_column (sees _ (by decide))) (rel_text _)) .nil
    groupBy := .cons hstart .nil } hlist ?_
  exact .cons (.mk hstart) (.cons (.mk (rel_documentArray hd (hscope.documentValue hd))) .nil)

lemma run_graphStage (h : L.DraftRel b b') (hr : L.Selects L.data b.scope) {g : GraphLookup}
    (hg : L.Covers (.graphLookup g)) :
    L.Run none (L.After b.ctes) (b.graphStage g) (b'.graphStage g) := by
  unfold Draft.graphStage
  have hstart := hg.values _ List.mem_cons_self
  refine run_warn (L.bind (run_rowsReady h hr) fun c c' hc => ?_)
  refine L.bind (run_render hc.1 (run_value hstart)) fun f f' hf =>
    run_numbered fun cte hname => ?_
  refine L.bind (run_walk hg (c.ctes.map Cte.signature) hname) ?_
  rintro w w' ⟨hw, hsignature⟩
  refine L.bind (L.hoist hg.hoists) fun _ _ _ => run_alias fun ranked => run_alias fun label => ?_
  refine L.bind L.read fun env env' henv => ?_
  have hn : (cte, GraphLookup.columns) ∈ (c.ctes ++ [w]).map Cte.signature := by
    rw [← hsignature]
    exact List.mem_map_of_mem (List.mem_append_right _ List.mem_cons_self)
  have hadd := hc.1.addCte hw
  refine L.pure ⟨hadd.joinFound ⟨g.asField, label, none⟩ 
    (queryRel_graphCollected hg henv.speaks ranked hn) ?_ ?_ ?_ (L.mono (ctx_le_addCte c w) hf),
     fun x hx => List.mem_append_left _ (hc.2 hx)⟩
  · simp [GraphLookup.collected, Query.columns, SelectItem.named, SelectItem.column?]
  · simp [GraphLookup.collected, Query.columns, SelectItem.named, SelectItem.column?]
  · rintro _ ⟨⟩

/-! ## Branches and unions -/

lemma run_ofCollection {cs cs' : List Cte} {collection : String} (hs : L.Stored collection)
    (label : String) (hc : L.CtesRel [] cs cs') :
    L.Run none (L.After cs) (Draft.ofCollection collection label cs)
      (Draft.ofCollection collection label cs') := by
  refine L.bind L.read fun env env' henv => L.pure ?_
  rw [henv.schema, henv.dataColumn, henv.dataColumn']
  refine ⟨draftRel_ofSource (sourceRel_table (.inl hs)) (scopeRel_document ?_) hc,
    List.Subset.refl _⟩
  exact Ctx.sees_own (s := ⟨label, .stored env'.schema collection⟩) List.mem_cons_self trivial

lemma run_union {cs cs' : List Cte} {left left' right right' : Query}
    (hl : L.QueryRel (cs.map Cte.signature) left left') (hcolumn : L.data ∈ left.columns)
    (hr : L.QueryRel (cs.map Cte.signature) right right')
    (hc : L.CtesRel [] cs cs') :
    L.Run none (L.After cs) (Draft.union left right cs) (Draft.union left' right' cs') := by
  refine run_alias fun label => L.bind L.read fun env env' henv => L.pure ?_
  rw [henv.dataColumn, henv.dataColumn']
  refine ⟨draftRel_ofSource (sourceRel_subquery _ (queryRel_compound hl hr) (List.Subset.refl _))
    (scopeRel_document (sees_subquery ?_)) hc, List.Subset.refl _⟩
  simpa only [Query.columns, Compound.columns] using hcolumn

/-- A branch reads the columns of the common input. -/
lemma run_facetBranch {cs cs' : List Cte} {Γ : Ctx} {s s' : Scope} {cte : String} {d : Dialect}
    (hs : L.ScopeRel Γ s s')
    (hn : (cte, (s.selectItems d L.data).filterMap SelectItem.column?) ∈ cs.map Cte.signature)
    (hc : L.CtesRel [] cs cs') :
    L.Run none (L.After cs) (Draft.facetBranch cte s cs) (Draft.facetBranch cte s' cs') := by
  refine run_alias fun label => L.bind L.read fun env env' henv => L.pure ?_
  rw [henv.dataColumn, henv.dataColumn']
  refine ⟨draftRel_ofSource (sourceRel_table (.inr ⟨rfl, _, hn⟩))
    (hs.wrapped (d := d) fun c hcolumn => ?_) hc, List.Subset.refl _⟩
  exact Ctx.sees_own (s := ⟨label, .named cte⟩) List.mem_cons_self ⟨_, hn, hcolumn⟩

/-- The rows of a query folded into an array. -/
lemma queryRel_folded {Γ : Ctx} {q q' : Query} {s s' : Scope} {d : Dialect} {label : String}
    (hq : L.QueryRel named q q') (hs : L.ScopeRel Γ s s')
    (hcolumns : q.columns = (s.selectItems d L.data).filterMap SelectItem.column?)
    (hl : L.Lists [none]) {e e' : Dialect} (he : L.Speaks e e') :
    L.QueryRel named
      { items := [⟨documentArray e ((s.wrapped label L.data).documentValue e), none⟩]
        source := some (.subquery q label) }
      { items := [⟨documentArray e' ((s'.wrapped label L.data).documentValue e'), none⟩]
        source := some (.subquery q' label) } := by
  let Δ : Ctx := { own := [⟨label, .columns q.columns⟩], named }
  have hwrapped : L.ScopeRel Δ (s.wrapped label L.data) (s'.wrapped label L.data) :=
    hs.wrapped (d := d) fun c hc =>
      Ctx.sees_own (s := ⟨label, .columns q.columns⟩) List.mem_cons_self (hcolumns ▸ hc)
  have hsource := sourceRel_subquery (Γ := Δ) label hq (List.Subset.refl _)
  refine queryRel_plain rfl rfl { selectRel_source hsource with } hl (.cons (.mk ?_) .nil)
  exact rel_documentArray he (hwrapped.documentValue he)

lemma run_facetEntry (h : L.DraftRel b b') (hr : L.Selects L.data b.scope) (hl : L.Lists [none])
    (name : Path) :
    L.Run none (L.EntryRel { named := b.ctes.map Cte.signature }) (b.facetEntry name)
      (b'.facetEntry name) := by
  refine L.bind (run_finish h hr) ?_
  rintro q q' ⟨hq, d, hcolumns⟩
  refine run_alias fun label => L.bind L.read fun env env' henv => L.pure (.selected ?_)
  rw [henv.dataColumn, henv.dataColumn', Query.fragment_eq env'.dialect env.dialect]
  exact rel_paren ((queryRel_folded hq h.scope hcolumns hl henv.speaks).layout _)

lemma draftRel_ofFacets {es es' : List Entry} {cs cs' : List Cte}
    (he : List.Forall₂ (L.EntryRel { named := cs.map Cte.signature }) es es')
    (hc : L.CtesRel [] cs cs') :
    L.DraftRel (.ofFacets es cs) (.ofFacets es' cs') :=
  draftRel_ofSource sourceRel_dual (scopeRel_computed (rel_object he)) hc

/-! ## Stages -/

/-- Related branches, which keep the given subqueries. -/
structure BranchesRel (L : FragmentLogic) (kept : List Cte) (p p' : List Entry × List Cte) :
    Prop where
  entries : List.Forall₂ (L.EntryRel { named := p.2.map Cte.signature }) p.1 p'.1
  ctes : L.CtesRel [] p.2 p'.2
  keeps : kept ⊆ p.2

lemma covers_self {s : Stage} (h : ∀ n ∈ s.nodes, L.Covers n) : L.Covers s :=
  h s s.self_mem_nodes

mutual

/-- Every stage that is covered takes related drafts to related drafts. -/
lemma run_stage : ∀ (s : Stage) {rest : List Stage} {b b' : Draft}, (∀ n ∈ s.nodes, L.Covers n) →
    L.DraftRel b b' → L.Admits (s :: rest) b →
    L.Run none (L.After b.ctes) (Draft.stage s b) (Draft.stage s b')
  | .filter test, _, _, _, hs, h, ha =>
    run_filterStage h ha.selects ((covers_self hs).values _ List.mem_cons_self)
  | .sort keys hint, _, _, _, _, h, ha => run_sortStage h ha.selects keys hint
  | .limit n, _, _, _, _, h, _ => L.pure (after_self (draftRel_limitStage h n))
  | .skip n, _, _, _, _, h, _ => L.pure (after_self (draftRel_skipStage h n))
  | .sample n, _, _, _, _, h, ha => run_sampleStage h ha.selects n
  | .lookup spec, _, _, _, hs, h, ha => run_lookupStage h ha.selects (covers_self hs)
  | .lookupPipeline .., _, _, _, _, _, _ => run_unsupported _
  | .unwind spec, _, _, _, _, h, ha => run_unwindStage h ha.selects spec
  | .redact decision, _, _, _, hs, h, ha =>
    run_redactStage h ha.selects ((covers_self hs).values _ List.mem_cons_self)
  | .project fields, _, _, _, hs, h, ha =>
    run_projectStage h ha.selects (covers_self hs).visible (covers_self hs).values
  | .addFields fields, _, _, _, hs, h, ha =>
    run_addFieldsStage h ha.selects (List.forall_mem_map.1 (covers_self hs).values)
  | .unset fields, _, _, _, _, h, ha => run_unsetStage h ha.selects fields
  | .replaceRoot root, _, _, _, hs, h, ha =>
    run_replaceRootStage h ha.selects ((covers_self hs).values _ List.mem_cons_self)
  | .group spec, _, _, _, hs, h, ha =>
    run_groupStage h ha.selects (fun e he => (covers_self hs).values e (Option.mem_toList.2 he))
      (covers_self hs).outputs
  | .count field, _, _, _, _, h, ha => run_countStage h ha.selects field
  | .bucket spec, _, _, _, hs, h, ha =>
    run_bucketStage h ha.selects ((covers_self hs).values _ List.mem_cons_self)
      (covers_self hs).outputs
  | .bucketAuto spec, _, _, _, hs, h, ha =>
    run_bucketAutoStage (covers_self hs).windows h ha.selects (ha.ready.numbers spec _ rfl)
      ((covers_self hs).values _ List.mem_cons_self) (covers_self hs).outputs
  | .windowFields spec, _, _, _, hs, h, ha =>
    have hvalues := List.forall_mem_append.1 (covers_self hs).values
    run_windowStage (covers_self hs).windows h ha.selects
      (fun e he => hvalues.1 e (Option.mem_toList.2 he))
      fun o ho e he => hvalues.2 e (List.mem_filterMap.2 ⟨o, ho, he⟩)
  | .graphLookup spec, _, _, _, hs, h, ha => run_graphStage h ha.selects (covers_self hs)
  | .facet facets, rest, b, b', hs, h, ha => by
    refine run_numbered fun name hname => L.bind (run_finish h ha.selects) ?_
    rintro q q' ⟨hq, d, hcolumns⟩
    let input : Cte := { name, query := q }
    have hcte : L.CteRel (input.inSight (b.ctes.map Cte.signature)) input { name, query := q' } :=
      cteRel_mk hname hq
    have hn : (name, (b.scope.selectItems d L.data).filterMap SelectItem.column?) ∈
        (b.ctes ++ [input]).map Cte.signature := by
      rw [← hcolumns, List.map_append]
      exact List.mem_append_right _ List.mem_cons_self
    have hfacets := (List.forall_mem_cons.1 hs).2
    have hlist := (covers_self hs).lists _ List.mem_cons_self
    refine L.bind (L.hoist (covers_self hs).hoists) fun _ _ _ => ?_
    refine L.bind (run_branches facets hfacets hlist (fun f hf ctes env e c e' hdata hrun =>
      ha.next (.facet hf hdata hrun)) h.scope hn (h.addCte hcte).ctes) fun p p' hp => ?_
    refine L.pure ⟨draftRel_ofFacets hp.entries hp.ctes, fun x hx => hp.keeps ?_⟩
    exact List.mem_append_left _ hx
  | .unionWith source nested, rest, b, b', hs, h, ha => by
    have hsource := (covers_self hs).tables _ List.mem_cons_self
    have hlist := (covers_self hs).lists _ List.mem_cons_self
    have hnested := (List.forall_mem_cons.1 hs).2
    refine L.bind (run_finishDocument h hlist) ?_
    rintro q q' ⟨hq, hcolumn⟩
    refine run_alias fun label => L.bind (L.yields (P := fun c => ∀ ss ∈ nested, L.Admits ss c)
      (run_ofCollection hsource label h.ctes) ?_) ?_
    · rintro env e c e' hdata hrun ss ⟨⟩
      exact ha.next (.union hdata hrun)
    rintro c c' ⟨hc, hadmits⟩
    refine L.bind (run_optional nested hnested hc.1 hadmits) fun e e' he => ?_
    have hce := hc.trans he
    refine L.bind (run_finishDocument hce.1 hlist) ?_
    rintro r r' ⟨hr, _⟩
    refine (run_union (hq.mono (List.map_subset _ hce.2)) hcolumn hr hce.1.ctes).imp ?_
    exact fun _ _ hx => hce.trans hx
  | .merge _, _, _, _, hs, _, _ => run_fault ((covers_self hs).refused rfl)
  | .out _, _, _, _, hs, _, _ => run_fault ((covers_self hs).refused rfl)

lemma run_stages : ∀ (ss : List Stage) {b b' : Draft}, (∀ n ∈ Stage.nodesOfList ss, L.Covers n) →
    L.DraftRel b b' → L.Admits ss b →
    L.Run none (fun c c' => L.After b.ctes c c' ∧ L.Admits [] c) (Draft.stages ss b)
      (Draft.stages ss b')
  | [], _, _, _, h, ha => L.pure ⟨after_self h, ha⟩
  | s :: rest, b, b', hs, h, ha => by
    have hnodes := List.forall_mem_append.1 hs
    refine L.bind (L.inStage (L.yields (P := L.Admits rest) (run_stage s hnodes.1 h ha) ?_)) ?_
    · exact fun env e c e' hdata hrun => ha.next (.stage hdata hrun)
    · rintro c c' ⟨hc, hadmits⟩
      exact (run_stages rest hnodes.2 hc.1 hadmits).imp fun _ _ he => ⟨hc.trans he.1, he.2⟩

lemma run_optional : ∀ (o : Option (List Stage)) {b b' : Draft},
    (∀ n ∈ Stage.nodesOfOption o, L.Covers n) → L.DraftRel b b' → (∀ ss ∈ o, L.Admits ss b) →
    L.Run none (L.After b.ctes) (Draft.optional o b) (Draft.optional o b')
  | none, _, _, _, h, _ => L.pure (after_self h)
  | some ss, _, _, hs, h, ha => (run_stages ss hs h (ha ss rfl)).imp fun _ _ hc => hc.1

lemma run_branches : ∀ (fs : List (Path × List Stage)) {cte : String} {Γ : Ctx} {s s' : Scope}
    {d : Dialect} {cs cs' : List Cte}, (∀ n ∈ Stage.nodesOfFacets fs, L.Covers n) →
    L.Lists [none] →
    (∀ f ∈ fs, ∀ ctes env e c e', Env.dataColumn env = L.data →
      ((Draft.facetBranch cte s ctes).run env).run e = .ok c e' → L.Admits f.2 c) →
    L.ScopeRel Γ s s' →
    (cte, (s.selectItems d L.data).filterMap SelectItem.column?) ∈ cs.map Cte.signature →
    L.CtesRel [] cs cs' →
    L.Run none (BranchesRel L.toFragmentLogic cs) (Draft.branches fs cte s cs)
      (Draft.branches fs cte s' cs')
  | [], _, _, _, _, _, _, _, _, _, _, _, _, hc => L.pure ⟨.nil, hc, List.Subset.refl _⟩
  | f :: rest, cte, Γ, s, s', d, cs, cs', hf, hl, ha, hs, hn, hc => by
    obtain ⟨hf, hrest⟩ := List.forall_mem_append.1 hf
    obtain ⟨ha, harest⟩ := List.forall_mem_cons.1 ha
    refine L.bind (run_branch f hf hl (ha cs) hs hn hc) ?_
    rintro ⟨e, ds⟩ ⟨e', ds'⟩ ⟨he, hds, hkeeps⟩
    have hn' := List.map_subset Cte.signature hkeeps hn
    refine L.bind (run_branches rest hrest hl harest hs hn' hds) fun p p' hp =>
      L.pure ⟨.cons ?_ hp.entries, hp.ctes, ?_⟩
    · exact he.mono (le_of_named_subset (List.map_subset _ hp.keeps))
    · exact fun x hx => hp.keeps (hkeeps hx)

lemma run_branch : ∀ (f : Path × List Stage) {cte : String} {Γ : Ctx} {s s' : Scope}
    {d : Dialect} {cs cs' : List Cte}, (∀ n ∈ Stage.nodesOfList f.2, L.Covers n) →
    L.Lists [none] →
    (∀ env e c e', Env.dataColumn env = L.data →
      ((Draft.facetBranch cte s cs).run env).run e = .ok c e' → L.Admits f.2 c) →
    L.ScopeRel Γ s s' →
    (cte, (s.selectItems d L.data).filterMap SelectItem.column?) ∈ cs.map Cte.signature →
    L.CtesRel [] cs cs' →
    L.Run none
      (fun p p' => L.EntryRel { named := p.2.map Cte.signature } p.1 p'.1 ∧
        L.CtesRel [] p.2 p'.2 ∧ cs ⊆ p.2)
      (Draft.branch f cte s cs) (Draft.branch f cte s' cs')
  | (name, ss), cte, Γ, s, s', d, cs, cs', hf, hl, ha, hs, hn, hc => by
    refine L.bind (L.yields (run_facetBranch hs hn hc) ha) ?_
    rintro c c' ⟨hcc, hadmits⟩
    refine L.bind (run_stages ss hf hcc.1 hadmits) ?_
    rintro e e' ⟨he, hdone⟩
    refine L.bind (run_facetEntry he.1 hdone.selects hl name) fun x x' hx => ?_
    exact L.pure ⟨hx, he.1.ctes, (hcc.trans he).2⟩

end

/-! ## Statements -/

/-- Queries with related subqueries in front of them, which are in sight of the rest. -/
structure OuterRel (L : FragmentLogic) (q q' : Query) : Prop where
  ctes : L.CtesRel [] q.ctes q'.ctes
  body : L.QueryRel (q.ctes.map Cte.signature) { q with ctes := [] } { q' with ctes := [] }

lemma OuterRel.query {q q' : Query} (h : OuterRel L.toFragmentLogic q q') (hn : L.Naming) :
    L.QueryRel [] q q' := by
  refine queryRel_outer hn h.ctes ?_
  rw [List.append_nil]
  exact h.body

/-- Statements with related subqueries, which are in sight of the rest. Where the relation respects
the brackets around the subqueries, the layouts are related. -/
structure StatementRel (L : FragmentLogic) (s s' : Statement) : Prop where
  ctes : L.CtesRel [] s.ctes s'.ctes
  body : ∀ d, L.Rel { named := s.ctes.map Cte.signature } (s.body.fragment d) (s'.body.fragment d)
  layout : L.Naming → ∀ d, L.Rel {} (s.fragment d) (s'.fragment d)

/-- A draft as a query of its own, with the named subqueries in front of it. -/
lemma outerRel_draft {items items' : List SelectItem} (h : L.DraftRel b b')
    (hl : L.Lists (items.map SelectItem.column?))
    (hi : List.Forall₂ (L.ItemRel b.ctx) items items') :
    OuterRel L.toFragmentLogic { b.query with items, ctes := b.ctes }
      { b'.query with items := items', ctes := b'.ctes } where
  ctes := h.ctes
  body := queryRel_plain rfl rfl { h.select with } hl hi

/-- The documents of a draft as a query of their own. -/
lemma run_documents (h : L.DraftRel b b') (hl : L.Lists [some L.data]) :
    L.Run none (fun q q' => OuterRel L.toFragmentLogic q q' ∧ L.data ∈ q.columns) b.documents
      b'.documents := by
  simp only [Draft.documents, Draft.finishDocument, bind_assoc, pure_bind]
  refine L.bind L.read fun env env' henv => L.pure ?_
  rw [henv.dataColumn, henv.dataColumn']
  have hcolumn := documentItem_column b.scope env.dialect L.data
  refine ⟨outerRel_draft h ?_ (.cons (h.documentItem henv.speaks _) .nil), ?_⟩
  · exact (congrArg (fun column => L.Lists [column]) hcolumn).mpr hl
  rw [h.columns_finished _ b.ctes]
  exact List.mem_filterMap.2 ⟨_, List.mem_cons_self, hcolumn⟩

section Merge

variable {Γ : Ctx} {t : Target} (m : Merge) (ht : ∀ column, Γ.Sees Merge.targetAlias column)
  (hs : Γ.Sees Merge.sourceAlias t.dataColumn)

include ht hs

lemma cond_agreement (field : Path) :
    L.Cond Γ (Merge.agreement t field) (Merge.agreement t field) := by
  refine Cond.relation ?_ (rel_scalarAt (rel_column hs))
  split
  · exact rel_column (ht _)
  · exact rel_scalarAt (rel_column (ht _))

/-- The conjunction so far is the invariant of the fold. -/
lemma cond_agreements (fields : List Path) : ∀ {c : Condition}, L.Cond Γ c c →
    L.Cond Γ (fields.foldl (fun c f => .both c (Merge.agreement t f)) c)
      (fields.foldl (fun c f => .both c (Merge.agreement t f)) c) := by
  induction fields with
  | nil => exact fun hc => hc
  | cons f rest ih => exact fun hc => ih (Cond.both hc (cond_agreement ht hs f))

lemma cond_merge : L.Cond Γ (m.condition t) (m.condition t) := by
  unfold Merge.condition
  split
  · exact .constant _
  · exact cond_agreements ht hs _ (cond_agreement ht hs _)

lemma whenMatched_rel {o : Option Fragment} (h : m.whenMatched t = .ok o) :
    Option.Rel (L.Rel Γ) o o := by
  have htarget : L.Rel Γ (Merge.targetDoc t) (Merge.targetDoc t) := rel_column (ht _)
  have hsource : L.Rel Γ (Merge.sourceDoc t) (Merge.sourceDoc t) := rel_column hs
  have hupdate := rel_append (rel_text "UPDATE SET ") htarget
  unfold Merge.whenMatched at h
  dsimp only at h
  split at h
  · cases h
    exact .none
  · cases h
  · split at h
    · cases h
      exact .some (rel_separated hupdate hsource)
    · cases h
  · split at h
    · cases h
      exact .some (rel_separated hupdate (rel_call₂ htarget hsource))
    · cases h

omit ht in
lemma whenUnmatched_rel {o : Option Fragment} (h : m.whenUnmatched t = .ok o) :
    Option.Rel (L.Rel Γ) o o := by
  have hsource : L.Rel Γ (Merge.sourceDoc t) (Merge.sourceDoc t) := rel_column hs
  unfold Merge.whenUnmatched at h
  dsimp only at h
  split at h
  · cases h
    exact .none
  · cases h
  · cases h
    refine .some (rel_separated (rel_append (rel_text _) (rel_nameList _)) ?_)
    refine rel_paren (rel_commas ?_)
    split
    · exact .cons (rel_call₂ hsource (rel_string _)) (.cons hsource .nil)
    · exact .cons hsource .nil

end Merge

lemma rel_action {Γ : Ctx} (keyword : String) [Common keyword] {o o' : Option Fragment}
    (h : Option.Rel (L.Rel Γ) o o') :
    L.Rel Γ (Statement.action keyword o) (Statement.action keyword o') := by
  cases h with
  | none => exact rel_nil
  | some hf => exact rel_append (rel_append rel_newline (rel_text _)) hf

/-- A merge of related rows is related. -/
lemma rel_merge {t : Target} {m : Merge} {q q' : Query} {table : String}
    {schema : Option String} {matched unmatched : Option Fragment} (hq : L.QueryRel named q q')
    (hcolumn : t.dataColumn ∈ q.columns) (hstored : L.Stored table)
    (hm : m.whenMatched t = .ok matched) (hu : m.whenUnmatched t = .ok unmatched) (d : Dialect) :
    L.Rel { named }
      (Statement.fragment d (.merge ⟨{ table, schema, label := some Merge.targetAlias }, q,
        Merge.sourceAlias, m.condition t, matched, unmatched⟩))
      (Statement.fragment d (.merge ⟨{ table, schema, label := some Merge.targetAlias }, q',
        Merge.sourceAlias, m.condition t, matched, unmatched⟩)) := by
  let Γ : Ctx :=
    { own := [⟨Merge.targetAlias, .stored schema table⟩, ⟨Merge.sourceAlias, .columns q.columns⟩]
      named }
  have ht : ∀ column, Γ.Sees Merge.targetAlias column := fun _ =>
    Ctx.sees_own (Γ := Γ) (s := ⟨Merge.targetAlias, .stored schema table⟩)
      List.mem_cons_self trivial
  have hs : Γ.Sees Merge.sourceAlias t.dataColumn :=
    Ctx.sees_own (Γ := Γ) (s := ⟨Merge.sourceAlias, .columns q.columns⟩)
      (List.mem_cons_of_mem _ List.mem_cons_self) hcolumn
  have hrows := rel_derived (Γ := Γ) (rel_nested (hq.layout d))
  have hon := rel_paren (rel_condition (cond_merge (L := L) m ht hs))
  have hmatched := rel_action (L := L) "WHEN MATCHED THEN " (whenMatched_rel m ht hs hm)
  have hunmatched := rel_action (L := L) "WHEN NOT MATCHED THEN " (whenUnmatched_rel m hs hu)
  simp only [Statement.fragment, Statement.mergeSources, ← hq.columns]
  refine L.group rfl ?_ (by simp [Bracket.selected?]) ?_
  · intro label hlabel
    simp only [Bracket.labels, Option.map_some, Option.toList_some, List.cons_append,
      List.nil_append, List.map_cons, List.map_nil, List.mem_cons, List.not_mem_nil, or_false]
      at hlabel
    obtain rfl | rfl := hlabel
    · simp [TableRef.fragment, Fragment.ident, Fragment.ofToken]
    · simp [Fragment.ident, Fragment.ofToken]
  · refine rel_append (rel_append (rel_append (rel_append ?_ (rel_text _)) hon) hmatched) hunmatched
    have htable := rel_tableRef (L := L.toFragmentLogic) (Γ := Γ)
      (t := { table, schema, label := some Merge.targetAlias }) (.inl hstored)
    change L.Rel Γ _ _
    mono

instance (t : Target) (m : Merge) : (m.whenMatched t).Ordinary := by
  unfold Merge.whenMatched
  dsimp only
  split <;> infer_instance

instance (t : Target) (m : Merge) : (m.whenUnmatched t).Ordinary := by
  unfold Merge.whenUnmatched
  split <;> infer_instance

lemma run_mergeStatement {t : Target} (ht : t.dataColumn = L.data) (h : L.DraftRel b b')
    (hl : L.Lists [some L.data]) {m : Merge} (hstored : L.Stored m.table) :
    L.Run none (StatementRel L.toFragmentLogic) (b.mergeStatement t m) (b'.mergeStatement t m) := by
  unfold Draft.mergeStatement
  refine L.bind (run_documents h hl) ?_
  rintro q q' ⟨hq, hcolumn⟩
  unfold Merge.statement
  cases hm : m.whenMatched t with
  | error e => exact L.fail (fails_of hm)
  | ok matched =>
    cases hu : m.whenUnmatched t with
    | error e => exact L.fail (fails_of hu)
    | ok unmatched =>
      simp only [bind, Except.bind, pure, Except.pure]
      rw [← ht] at hcolumn
      split
      · exact L.fail (L.fails rfl)
      · refine L.pure ⟨hq.ctes, rel_merge hq.body ?_ hstored hm hu, fun hn =>
          rel_merge (hq.query hn) hcolumn hstored hm hu⟩
        rwa [columns_outer]

lemma run_outStatement {t : Target} (h : L.DraftRel b b') (hl : L.Lists [some L.data]) {o : Out}
    (hstored : L.Stored o.table) :
    L.Run none (StatementRel L.toFragmentLogic) (b.outStatement t o) (b'.outStatement t o) := by
  refine run_warn (L.bind (run_documents h hl) ?_)
  rintro q q' ⟨hq, _⟩
  have hinsert {named : List (String × List String)} {q q' : Query} (hq : L.QueryRel named q q')
      (d : Dialect) : L.Rel { named }
        (Statement.fragment d (.insert { table := o.table, schema := o.schema.or t.schema }
          [t.dataColumn] q))
        (Statement.fragment d (.insert { table := o.table, schema := o.schema.or t.schema }
          [t.dataColumn] q')) := by
    simp only [Statement.fragment]
    exact rel_append (rel_append (rel_append (rel_append (rel_append (rel_text _)
      (rel_tableRef (.inl hstored))) (rel_text _)) (rel_nameList _)) rel_newline) (hq.layout d)
  exact L.pure ⟨hq.ctes, hinsert hq.body, fun hn => hinsert (hq.query hn)⟩

/-- The statement around related drafts. -/
lemma run_statementOf {t : Target} (ht : t.dataColumn = L.data) (h : L.DraftRel b b')
    (hr : L.Selects L.data b.scope) {terminal : Option Stage}
    (hs : ∀ s ∈ terminal, s.isTerminal = true)
    (hstored : ∀ s ∈ terminal, ∀ c ∈ s.tables, L.Stored c)
    (hlists : ∀ s ∈ terminal, ∀ columns ∈ s.lists L.data, L.Lists columns) :
    L.Run none (StatementRel L.toFragmentLogic) (Pipeline.finish t b terminal)
      (Pipeline.finish t b' terminal) := by
  unfold Pipeline.finish
  split
  · simp only [Draft.finish, bind_assoc, pure_bind]
    refine L.bind L.read fun env env' henv => L.pure ?_
    rw [henv.dataColumn, henv.dataColumn']
    have hq := outerRel_draft h (hr _) (h.scope.selectItems henv.speaks L.data)
    exact ⟨hq.ctes, hq.body.layout, fun hn => (hq.query hn).layout⟩
  · exact L.inStage (run_outStatement h (hlists _ rfl _ List.mem_cons_self)
      (hstored _ rfl _ List.mem_cons_self))
  · exact L.inStage (run_mergeStatement ht h (hlists _ rfl _ List.mem_cons_self)
      (hstored _ rfl _ List.mem_cons_self))
  · next s hout hmerge =>
    have hterminal := hs s rfl
    cases s with
    | out spec => exact absurd rfl (hout spec)
    | merge spec => exact absurd rfl (hmerge spec)
    | _ => cases hterminal

/-- Only the last stage is split off. -/
lemma append_splitTerminal (stages : List Stage) :
    (Pipeline.splitTerminal stages).1 ++ (Pipeline.splitTerminal stages).2.toList = stages := by
  obtain rfl | ⟨init, last, rfl⟩ := List.eq_nil_or_concat' stages
  · rfl
  · unfold Pipeline.splitTerminal
    cases h : last.isTerminal <;> simp [h]

lemma isTerminal_of_mem_splitTerminal {stages : List Stage} :
    ∀ s ∈ (Pipeline.splitTerminal stages).2, s.isTerminal = true := by
  unfold Pipeline.splitTerminal
  split
  · simp
  · split <;> simp_all

/-- The statement of a pipeline is related to itself if its stages are covered and admit the draft
that they start from. -/
lemma run_statement {p : Pipeline} {t : Target} (ht : t.dataColumn = L.data)
    (hbase : L.Stored (p.collection t))
    (hstages : ∀ n ∈ Stage.nodesOfList (Pipeline.splitTerminal p.stages).1, L.Covers n)
    (hterminal : ∀ s ∈ (Pipeline.splitTerminal p.stages).2, ∀ c ∈ s.tables, L.Stored c)
    (hlists : ∀ s ∈ (Pipeline.splitTerminal p.stages).2, ∀ columns ∈ s.lists L.data,
      L.Lists columns)
    (hadmits : ∀ env e b e', Env.dataColumn env = L.data →
      ((Draft.ofCollection (p.collection t) baseAlias []).run env).run e = .ok b e' →
      L.Admits (Pipeline.splitTerminal p.stages).1 b) :
    L.Keeps none (StatementRel L.toFragmentLogic) (p.statement t) := by
  unfold Pipeline.statement
  refine L.bind (L.yields (run_ofCollection hbase _ .nil) hadmits) ?_
  rintro b b' ⟨hb, hbegin⟩
  refine L.bind (run_stages _ hstages hb.1 hbegin) ?_
  rintro c c' ⟨hc, hdone⟩
  exact run_statementOf ht hc.1 hdone.selects isTerminal_of_mem_splitTerminal hterminal hlists

/-- The layout of any statement is related to itself, if every table is stored, every error may
occur, every select list is accepted, scalars may be extracted as all declared types and the
brackets around named subqueries and the texts that open windows are respected. -/
lemma run_layout (p : Pipeline) {t : Target} (ht : t.dataColumn = L.data)
    (hstored : ∀ name, L.Stored name) (hfails : ∀ e, L.Fails e)
    (hlists : ∀ columns, L.Lists columns)
    (htypes : ∀ s ∈ Stage.nodesOfList (Pipeline.splitTerminal p.stages).1,
      ∀ e ∈ s.values ++ s.outputs.map Prod.snd, ∀ n ∈ e.nodes, L.Extracts n.declared?)
    (hn : L.Naming) (hw : L.Windowing) (hhoists : L.Hoists) (hvisible : ∀ x, L.Visible x) :
    L.Keeps none (fun s s' => ∀ d, L.Rel {} (s.fragment d) (s'.fragment d)) (p.statement t) := by
  have hrun := run_statement (p := p) ht (hstored _)
    (fun s hs => ⟨fun c _ => hstored c, htypes s hs, fun c _ => hlists c, hw, fun _ => hfails _,
      hhoists, fun _ => hfails _, hvisible⟩)
    (fun _ _ c _ => hstored c) (fun _ _ c _ => hlists c)
    fun _ _ b _ _ _ => admits_of_lists hlists _ b
  exact hrun.imp fun _ _ hs => hs.layout hn

end RenderLogic

end PipelineSql
