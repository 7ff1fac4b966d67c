import PipelineSql.Proofs.Relation.Draft
import PipelineSql.Draft

/-!
# Related stages

Every stage takes related drafts to related drafts, and keeps their named subqueries.
-/

namespace PipelineSql

namespace FragmentLogic

variable {L : FragmentLogic} {Γ : Ctx}

/-- The scalars at a path of related documents are related. -/
@[mono]
lemma rel_scalarAt {f g : Fragment} {path : Path} (h : L.Rel Γ f g) :
    L.Rel Γ (scalarAt f path) (scalarAt g path) := by
  unfold scalarAt
  exact rel_call₂ h (rel_string _)

/-- The arrays that collect related documents are related. -/
lemma rel_documentArray {d d' : Dialect} (hd : L.Speaks d d') {f g : Fragment}
    (h : L.Rel Γ f g) : L.Rel Γ (documentArray d f) (documentArray d' g) := by
  have hdoc := rel_append h (rel_text " FORMAT JSON")
  unfold documentArray
  rw [← (L.features hd).jsonType]
  dsimp only
  split
  · exact rel_append (rel_text _) (rel_paren (rel_append hdoc rel_nil))
  · have hreturning := rel_append (L := L) (Γ := Γ) (rel_text " RETURNING ")
      (rel_returnType hd .json)
    exact rel_append (rel_text _) (rel_paren (rel_append hdoc hreturning))

end FragmentLogic

/-- The columns of the select lists that a stage writes whatever the row is. A document of the
column `data` is selected as that. -/
def Stage.lists (data : String) : Stage → List (List (Option String))
  | .lookup _ => [[some keyColumn, some docsColumn]]
  | .graphLookup _ => [[none, none, some data, none, none],
    [some GraphLookup.startColumn, none, some data, none, none],
    [some GraphLookup.startColumn, some GraphLookup.docColumn, some GraphLookup.depthColumn,
      some GraphLookup.rankColumn],
    [some keyColumn, some docsColumn]]
  | .facet _ => [[none]]
  | .unionWith .. | .merge _ | .out _ => [[some data]]
  | _ => []

namespace RenderLogic

open FragmentLogic

variable {L : RenderLogic} {b b' : Draft}

/-- The collections that a stage names are stored, scalars may be extracted as the types that it
declares, its own select lists and its windows are accepted, a stage that writes may be refused,
and so may a checked sum, and everything may be read. -/
structure Covers (L : RenderLogic) (s : Stage) : Prop where
  stored : ∀ c ∈ s.collections, L.Stored c
  types : ∀ e ∈ s.values ++ s.outputs.map Prod.snd, ∀ n ∈ e.nodes, L.Extracts n.declared?
  lists : ∀ columns ∈ s.lists L.data, L.Lists columns
  windows : L.Windowing
  refused : s.isTerminal = true → L.Fails (.structural (.misplaced s.name))
  hoists : L.Hoists
  sums : L.Checked → L.Fails (.structural .overflow)
  visible : ∀ x, L.Visible x

/-- The tables of a stage that is covered are stored. -/
lemma Covers.tables {s : Stage} (h : L.Covers s) : ∀ c ∈ s.tables, L.Stored c :=
  (List.forall_mem_append.1 h.stored).1

/-- All expressions of a stage that is covered are known. -/
lemma Covers.exprs {s : Stage} (h : L.Covers s) :
    ∀ e ∈ s.values ++ s.outputs.map Prod.snd, L.Known e := by
  intro e he n hn
  have hstored := List.forall_mem_flatMap.1 (List.forall_mem_append.1 h.stored).2 e he
  exact ⟨fun x _ => h.visible x, List.forall_mem_filterMap.1 hstored n hn, h.types e he n hn,
    fun hc _ => h.sums hc⟩

/-- The values of a stage that is covered are known. -/
lemma Covers.values {s : Stage} (h : L.Covers s) : ∀ e ∈ s.values, L.Known e :=
  (List.forall_mem_append.1 h.exprs).1

/-- The outputs of a stage that is covered are known. -/
lemma Covers.outputs {s : Stage} (h : L.Covers s) : ∀ o ∈ s.outputs, L.Known o.2 :=
  List.forall_mem_map.1 (List.forall_mem_append.1 h.exprs).2

/-! ## Rows -/

/-- A filter goes to the rows, or to the groups if there are any. -/
lemma run_filterStage (h : L.DraftRel b b') (hr : L.Selects L.data b.scope) {test : Expr}
    (htest : L.Known test) :
    L.Run none (L.After b.ctes) (b.filterStage test) (b'.filterStage test) := by
  unfold Draft.filterStage
  rw [h.grouped, h.windowed, h.rows]
  refine run_ite (fun _ => ?_) fun _ => ?_
  · refine L.bind (run_render h (run_condition htest)) fun c c' hc => L.pure ?_
    exact after_self (h.filterGroups hc)
  · refine L.bind (run_rowsReady h hr) fun e e' he => ?_
    refine L.bind (run_render he.1 (run_condition htest)) fun c c' hc => L.pure ?_
    exact ⟨he.1.filter hc, he.2⟩

/-- A sort replaces the order of the rows. -/
lemma run_sortStage (h : L.DraftRel b b') (hr : L.Selects L.data b.scope) (keys : List SortKey)
    (hint : Option Nat) :
    L.Run none (L.After b.ctes) (b.sortStage keys hint) (b'.sortStage keys hint) := by
  unfold Draft.sortStage
  refine L.bind (run_uncut h hr) fun c c' hc => L.bind L.read fun env env' henv => L.pure ?_
  have hterms := orderTerms_rel henv hc.1.scope keys true
  have hrows := hc.1.rows
  refine ⟨{ hc.1 with
    select := { hc.1.select with orderBy := hterms.1, rows := ?_ }
    sortedByAlias := hterms.2
    ordering := rfl }, hc.2⟩
  simp only [hrows]

/-- A limit changes the window of the rows alone. -/
lemma draftRel_limitStage (h : L.DraftRel b b') (n : Nat) :
    L.DraftRel (b.limitStage n) (b'.limitStage n) := by
  unfold Draft.limitStage
  rw [h.rows]
  exact h.withRows _

/-- A skip changes the window of the rows alone. -/
lemma draftRel_skipStage (h : L.DraftRel b b') (n : Nat) :
    L.DraftRel (b.skipStage n) (b'.skipStage n) := by
  unfold Draft.skipStage
  rw [h.rows]
  exact h.withRows _

/-- A sample orders the rows at random and limits them. -/
lemma run_sampleStage (h : L.DraftRel b b') (hr : L.Selects L.data b.scope) (n : Nat) :
    L.Run none (L.After b.ctes) (b.sampleStage n) (b'.sampleStage n) := by
  unfold Draft.sampleStage
  refine L.bind (run_uncut h hr) fun c c' hc => L.pure ⟨draftRel_limitStage ?_ n, hc.2⟩
  exact { hc.1 with
    select := { hc.1.select with orderBy := .cons (.mk (L.text "DBMS_RANDOM.VALUE")) .nil }
    sortedByAlias := rfl
    ordering := rfl }

/-- The query that collects what a lookup finds selects from a stored table. -/
lemma queryRel_collected {named : List (String × List String)} {row : Option Ctx} {env env' : Env}
    (henv : L.EnvRel L.data row env env') {l : Lookup} (hl : L.Covers (.lookup l))
    (label : String) :
    L.QueryRel named (l.collected env label) (l.collected env' label) := by
  unfold Lookup.collected
  rw [henv.dataColumn, henv.dataColumn', henv.schema]
  have hdoc : L.Rel { own := [⟨label, .stored env'.schema l.source⟩], named }
      (Fragment.column label L.data) (Fragment.column label L.data) :=
    rel_column
      (Ctx.sees_own (s := ⟨label, .stored env'.schema l.source⟩) List.mem_cons_self trivial)
  have hstored := hl.tables l.source List.mem_cons_self
  refine queryRel_plain rfl rfl { selectRel_source (sourceRel_table (.inl hstored)) with
    groupBy := .cons (rel_scalarAt hdoc) .nil } (hl.lists _ List.mem_cons_self) ?_
  exact .cons (.mk (rel_scalarAt hdoc)) (.cons (.mk (rel_documentArray henv.speaks hdoc)) .nil)

/-- A lookup joins the collected documents to the row. -/
lemma run_lookupStage (h : L.DraftRel b b') (hr : L.Selects L.data b.scope) {l : Lookup}
    (hl : L.Covers (.lookup l)) :
    L.Run none (L.After b.ctes) (b.lookupStage l) (b'.lookupStage l) := by
  unfold Draft.lookupStage
  refine L.bind (run_rowsReady h hr) fun c c' hc => run_alias fun label => run_alias fun inner => ?_
  refine L.bind L.read fun env env' henv => L.pure ⟨?_, hc.2⟩
  have hhere := (henv.atScope hc.1.scope).fieldValue (hc.1.scope.resolve l.localField false) none
  refine hc.1.joinFound ⟨l.asField, label, some ⟨l.source, l.localField, l.foreignField⟩⟩
    (queryRel_collected henv hl inner) ?_ ?_ ?_ hhere
  · simp [Lookup.collected, Query.columns, SelectItem.named, SelectItem.column?]
  · simp [Lookup.collected, Query.columns, SelectItem.named, SelectItem.column?]
  · rintro _ ⟨⟩
    exact hl.tables l.source List.mem_cons_self

/-- An array is unwound by a join with its elements; both sides have a place for it, or neither. -/
lemma run_unwindStage (h : L.DraftRel b b') (hr : L.Selects L.data b.scope) (u : Unwind) :
    L.Run none (L.After b.ctes) (b.unwindStage u) (b'.unwindStage u) := by
  unfold Draft.unwindStage
  refine L.bind (run_rowsReady h hr) fun c c' hc => L.bind L.read fun env env' henv => ?_
  have hl : L.PlaceRel c.ctx (Env.location? { env with scope := c.scope } u.path)
      (Env.location? { env' with scope := c'.scope } u.path) :=
    ResolvedRel.location (hc.1.scope.resolve u.path false)
  generalize Env.location? { env with scope := c.scope } u.path = o,
    Env.location? { env' with scope := c'.scope } u.path = o' at hl
  cases hl with
  | none => exact run_unsupported _
  | @some doc doc' path hd =>
    refine run_alias fun label => L.pure ⟨?_, hc.2⟩
    have helements : L.Rel c.ctx (Unwind.elements env.dialect doc path).fragment
        (Unwind.elements env'.dialect doc' path).fragment := by
      unfold Unwind.elements
      rw [← (L.features henv.speaks).elementDefinition]
      have hsaid := Dialect.says_elementDefinition env.dialect
      exact rel_elementTable ⟨rel_text _, rel_said henv.speaks hsaid⟩ hd
    refine hc.1.joinUnwound ⟨u.path, label, u.index⟩ helements fun Γ => ?_
    split <;> mono

/-- What is redacted is filtered by the decision. -/
lemma run_redactStage (h : L.DraftRel b b') (hr : L.Selects L.data b.scope) {decision : Expr}
    (hd : L.Known decision) :
    L.Run none (L.After b.ctes) (b.redactStage decision) (b'.redactStage decision) := by
  unfold Draft.redactStage
  refine run_warn (L.bind (run_rowsReady h hr) fun c c' hc => ?_)
  refine L.bind (run_render hc.1 (run_value hd)) fun f g hfg => L.pure ?_
  refine ⟨hc.1.filter ?_, hc.2⟩
  mono

/-! ## Shapes -/

/-- A column of output is written as JSON if its value is. -/
lemma run_outputColumn (h : L.DraftRel b b') (name : Path) {value : Expr} (hv : L.Known value) :
    L.Run none (L.ColumnRel b.ctx) (b.outputColumn name value) (b'.outputColumn name value) := by
  refine L.bind (run_render h (run_json hv)) ?_
  rintro ⟨f, json⟩ ⟨g, _⟩ ⟨hfg, rfl⟩
  exact L.pure (.output hfg)

/-- Related scopes miss the same fields. -/
lemma isMissing_eq {Γ : Ctx} {s s' : Scope} (h : L.ScopeRel Γ s s') (path : Path) :
    Draft.isMissing s path = Draft.isMissing s' path := by
  have hr := h.resolve path false
  unfold Draft.isMissing
  generalize s.resolve path false = r, s'.resolve path false = r' at hr
  cases hr <;> rfl

/-- A field of no declared type asks for nothing. -/
lemma known_field {path : Path} (hv : L.Visible (.field path)) : L.Known (.field { path }) := by
  refine known_iff.2 ⟨⟨?_, by simp [Expr.table?], inferInstanceAs (L.Extracts none),
    by simp [Expr.atLimit]⟩, by simp [Expr.parts]⟩
  rintro _ ⟨⟩
  exact hv

/-- What a projection selects or computes is known. -/
lemma known_projected {fields : List (Path × ProjectField)} (hv : ∀ x, L.Visible x)
    (hf : ∀ e ∈ Stage.values (.project fields), L.Known e) {f : Path × ProjectField}
    (hmem : f ∈ fields) {e : Expr} (he : Draft.projected? f.1 f.2 = some e) : L.Known e := by
  obtain ⟨name, _ | _ | value⟩ := f
  · cases he
    exact known_field (hv _)
  · cases he
  · cases he
    exact hf _ (List.mem_filterMap.2 ⟨_, hmem, rfl⟩)

/-- A projection that includes fields selects a column for each. -/
lemma run_includeFields (h : L.DraftRel b b') {fields : List (Path × ProjectField)}
    (hv : ∀ x, L.Visible x) (hf : ∀ e ∈ Stage.values (.project fields), L.Known e) :
    L.Run none (L.After b.ctes) (b.includeFields fields) (b'.includeFields fields) := by
  unfold Draft.includeFields
  rw [isMissing_eq h.scope]
  refine L.bind (run_mapM_self fun p hp => run_outputColumn h p.1 ?_) fun cs cs' hcs => ?_
  · obtain hid | hlisted := List.mem_append.1 hp
    · split at hid
      · cases hid
      · obtain rfl := List.mem_singleton.1 hid
        exact known_field (hv _)
    · obtain ⟨f, hmem, he⟩ := List.mem_filterMap.1 hlisted
      obtain ⟨e, hprojected, rfl⟩ := Option.map_eq_some_iff.1 he
      exact known_projected hv hf hmem hprojected
  exact L.pure (after_self (h.withScope (scopeRel_columns hcs)))

/-- Fields are removed from the document, or their columns are left out. -/
lemma run_excludeFields (h : L.DraftRel b b') (names : List Path) (stage : String) :
    L.Run none (L.After b.ctes) (b.excludeFields names stage) (b'.excludeFields names stage) := by
  unfold Draft.excludeFields
  rw [h.scope.isDocument]
  refine run_ite (fun _ => L.bind L.read fun env env' henv => ?_) fun _ => L.pure ?_
  · have hdoc := h.scope.documentValue henv.speaks
    have halike := L.features henv.speaks
    have hremovals : List.Forall₂ (L.Rel b.ctx)
        (names.map fun n => "REMOVE " ++ Fragment.string n.json)
        (names.map fun n => "REMOVE " ++ Fragment.string n.json) := by
      refine forall₂_self fun f hf => ?_
      obtain ⟨_, _, rfl⟩ := List.mem_map.1 hf
      mono
    dsimp only
    rw [← halike.jsonTransform]
    refine run_ite (fun hnone => ?_) fun htransform => L.pure ?_
    · rw [← halike.name (by simpa using hnone)]
      exact L.bind (A := fun _ _ => False) (run_unsupported _) fun _ _ => False.elim
    · have hsaid := rel_said (Γ := b.ctx) henv.speaks (.jsonTransform (by simpa using htransform))
      exact after_self (h.withScope (scopeRel_computed
        (L.append hsaid (rel_paren (rel_commas (.cons hdoc hremovals))))))
  · refine after_self (h.withScope (scopeRel_columns ?_))
    have hkept := List.rel_filter (p := fun e => !names.any fun n => e.name.isWithin n)
      (q := fun e => !names.any fun n => e.name.isWithin n)
      (fun e e' he => by simp [he.name_eq]) h.scope.entries
    rw [List.forall₂_map_left_iff, List.forall₂_map_right_iff]
    refine hkept.imp fun e e' he => ?_
    rw [he.name_eq, he.json_eq]
    exact .output he.value

/-- A projection includes fields or excludes them. -/
lemma run_projectStage (h : L.DraftRel b b') (hr : L.Selects L.data b.scope)
    {fields : List (Path × ProjectField)} (hv : ∀ x, L.Visible x)
    (hf : ∀ e ∈ Stage.values (.project fields), L.Known e) :
    L.Run none (L.After b.ctes) (b.projectStage fields) (b'.projectStage fields) := by
  unfold Draft.projectStage
  refine L.bind (run_reshapeReady h hr) fun c c' hc => ?_
  split
  · exact (run_includeFields hc.1 hv hf).imp fun _ _ he => hc.trans he
  · exact (run_excludeFields hc.1 _ _).imp fun _ _ he => hc.trans he

/-- Fields are unset by a projection that excludes them. -/
lemma run_unsetStage (h : L.DraftRel b b') (hr : L.Selects L.data b.scope) (names : List Path) :
    L.Run none (L.After b.ctes) (b.unsetStage names) (b'.unsetStage names) :=
  L.bind (run_reshapeReady h hr) fun _ _ hc =>
    (run_excludeFields hc.1 names _).imp fun _ _ he => hc.trans he

/-- A new root becomes the document of the row. -/
lemma run_replaceRootStage (h : L.DraftRel b b') (hr : L.Selects L.data b.scope) {root : Expr}
    (hroot : L.Known root) :
    L.Run none (L.After b.ctes) (b.replaceRootStage root) (b'.replaceRootStage root) := by
  unfold Draft.replaceRootStage
  refine L.bind (run_reshapeReady h hr) fun c c' hc => L.bind (run_render hc.1 (run_json hroot)) ?_
  intro f g hfg
  exact L.pure ⟨hc.1.withScope (scopeRel_computed hfg.1), hc.2⟩

/-- Related scopes compute the same fields. -/
lemma readsComputed_eq {Γ : Ctx} {s s' : Scope} (h : L.ScopeRel Γ s s') (e : Expr) :
    Draft.readsComputed s e = Draft.readsComputed s' e := by
  have hany (path : Path) : s.computed.any (fun c => path.overlaps c.name) =
      s'.computed.any fun c => path.overlaps c.name := by
    have hc := h.computed
    generalize s.computed = cs, s'.computed = cs' at hc
    induction hc with
    | nil => rfl
    | cons hc _ ih =>
      obtain ⟨_⟩ := hc
      rw [List.any_cons, List.any_cons, ih]
  unfold Draft.readsComputed
  congr 1
  funext r
  cases r with
  | wholeDocument => rfl
  | field path => exact hany path

/-- Added fields are all computed from the row as it was. -/
lemma run_addFieldsStage (h : L.DraftRel b b') (hr : L.Selects L.data b.scope)
    {fields : List (Path × Expr)} (hf : ∀ f ∈ fields, L.Known f.2) :
    L.Run none (L.After b.ctes) (b.addFieldsStage fields) (b'.addFieldsStage fields) := by
  unfold Draft.addFieldsStage
  simp only [readsComputed_eq h.scope]
  refine L.bind (run_wrapIf h hr _) fun c c' hc => ?_
  refine L.bind (run_mapM_self (A := L.ComputedRel c.ctx) fun p hp => ?_) fun cs cs' hcs => ?_
  · refine L.bind (run_render hc.1 (run_json (hf p hp))) ?_
    rintro ⟨f, json⟩ ⟨g, _⟩ ⟨hfg, rfl⟩
    exact L.pure (.mk hfg)
  · exact L.pure ⟨hc.1.withScope (ScopeRel.computeAll hcs hc.1.scope), hc.2⟩

/-- The clause of a window is that of its partition and its order. -/
lemma run_partition (h : L.DraftRel b b') {spec : WindowFields}
    (hs : ∀ e ∈ spec.partitionBy, L.Known e) :
    L.Run none (L.Rel b.ctx) (b.partition spec) (b'.partition spec) := by
  unfold Draft.partition
  refine L.bind (run_optionMapM fun e he => run_render h (run_value (hs e he))) fun o o' ho => ?_
  refine L.bind L.read fun env env' henv => ?_
  have hterms := (orderTerms_rel henv h.scope spec.sortBy false).1
  generalize Draft.orderTerms env b.scope spec.sortBy false = t,
    Draft.orderTerms env' b'.scope spec.sortBy false = t' at hterms
  refine L.pure ?_
  have horder := rel_orderTerms hterms
  have hpartition : List.Forall₂ (L.Rel b.ctx)
      (o.toList.map fun f => "PARTITION BY " ++ f)
      (o'.toList.map fun f => "PARTITION BY " ++ f) := by
    cases ho with
    | none => exact .nil
    | some hf => exact .cons (rel_append (rel_text _) hf) .nil
  rw [isEmpty_eq_of_forall₂ hterms]
  refine rel_joined _ (List.rel_append hpartition ?_)
  split <;> mono

/-- Window functions become computed fields of the row. -/
lemma run_windowStage (hw : L.Windowing) (h : L.DraftRel b b') (hr : L.Selects L.data b.scope)
    {spec : WindowFields} (hs : ∀ e ∈ spec.partitionBy, L.Known e)
    (ho : ∀ o ∈ spec.outputs, ∀ e ∈ o.2.arg, L.Known e) :
    L.Run none (L.After b.ctes) (b.windowStage spec) (b'.windowStage spec) := by
  unfold Draft.windowStage
  rw [h.grouped, h.rows, funext (readsComputed_eq h.scope)]
  refine L.bind (run_wrapIf h hr _) fun c c' hc => L.bind (run_partition hc.1 hs) fun f g hfg => ?_
  refine L.bind (run_mapM_self (A := L.ComputedRel c.ctx) fun p hp => ?_) fun cs cs' hcs => ?_
  · exact L.bind (run_render hc.1 (run_windowOutput hw (ho p hp) hfg)) fun v v' hv =>
      L.pure (.mk hv)
  · have hscope := ScopeRel.computeAll hcs hc.1.scope
    exact L.pure ⟨{ hc.1.withScope hscope with windowed := rfl }, hc.2⟩

/-! ## Groups -/

/-- Group keys with related texts. -/
inductive GroupKeyRel (L : FragmentLogic) (Γ : Ctx) : Draft.GroupKey → Draft.GroupKey → Prop where
  | mk {f g json fs gs} : L.Rel Γ f g → List.Forall₂ (L.Rel Γ) fs gs →
    GroupKeyRel L Γ ⟨f, json, fs⟩ ⟨g, json, gs⟩

/-- A compound key is an object of its fields, each of which is grouped by. -/
lemma run_compoundKey {Γ : Ctx} {fields : List (String × Expr)} (hf : ∀ f ∈ fields, L.Known f.2) :
    L.Keeps (some Γ) (GroupKeyRel L.toFragmentLogic Γ) (Draft.compoundKey fields) := by
  unfold Draft.compoundKey
  refine L.bind (run_mapM_self (A := fun p p' : String × Fragment => p.1 = p'.1 ∧ L.Rel Γ p.2 p'.2)
    fun p hp => ?_) fun ps ps' hps => L.pure (.mk (rel_object ?_) ?_)
  · exact L.bind (run_value (hf p hp)) fun f g hfg => L.pure ⟨rfl, hfg⟩
  · rw [List.forall₂_map_left_iff, List.forall₂_map_right_iff]
    refine hps.imp ?_
    rintro ⟨name, f⟩ ⟨_, g⟩ ⟨rfl, hfg⟩
    exact .selected hfg
  · rw [List.forall₂_map_left_iff, List.forall₂_map_right_iff]
    exact hps.imp fun p p' hp => hp.2

/-- A group key is compound, simple, or missing. -/
lemma run_groupKey {Γ : Ctx} {id : Option Expr} (hid : ∀ e ∈ id, L.Known e) :
    L.Keeps (some Γ) (GroupKeyRel L.toFragmentLogic Γ) (Draft.groupKey id) := by
  refine L.inlined ?_
  split
  · exact L.pure (.mk rel_null .nil)
  · exact L.bind L.literal fun f g hfg => L.pure (.mk hfg .nil)
  · exact run_compoundKey (List.forall_mem_map.1 (hid _ rfl).parts)
  · exact run_compoundKey (List.forall_mem_map.1 (hid _ rfl).parts)
  · exact L.bind (run_value (hid _ rfl)) fun f g hfg => L.pure (.mk hfg (.cons hfg .nil))

/-- Each accumulator becomes a column. -/
lemma run_accumulatorColumns {Γ : Ctx} (stage : String) {outputs : List (Path × Expr)}
    (ho : ∀ o ∈ outputs, L.Known o.2) :
    L.Keeps (some Γ) (List.Forall₂ (L.ColumnRel Γ)) (Draft.accumulatorColumns stage outputs) := by
  refine run_mapM_self ?_
  rintro ⟨name, e⟩ hp
  dsimp only
  split
  · refine L.bind (run_exprAggregate (ho _ hp)) ?_
    rintro ⟨f, json⟩ ⟨g, _⟩ ⟨hfg, rfl⟩
    exact L.pure (.output hfg)
  · exact run_fault (L.fails rfl)

/-- A count is the same column on both sides. -/
lemma columnRel_count {Γ : Ctx} (name : Path) :
    L.ColumnRel Γ (Draft.countColumn name) (Draft.countColumn name) :=
  .output (rel_text _)

/-- Related texts of an id make related columns. -/
lemma columnRel_id {Γ : Ctx} {f g : Fragment} (json : Bool) (h : L.Rel Γ f g) :
    L.ColumnRel Γ (Draft.idColumn f json) (Draft.idColumn g json) :=
  .output h

/-- Buckets have the columns of their outputs, or a count. -/
lemma run_bucketColumns {Γ : Ctx} (stage : String) {outputs : List (Path × Expr)}
    (ho : ∀ o ∈ outputs, L.Known o.2) :
    L.Keeps (some Γ) (List.Forall₂ (L.ColumnRel Γ)) (Draft.bucketColumns stage outputs) :=
  run_ite (fun _ => L.pure (.cons (columnRel_count _) .nil)) fun _ => run_accumulatorColumns _ ho

/-- The demand for a row is the same on both sides. -/
lemma draftRel_requireRows (h : L.DraftRel b b') : L.DraftRel b.requireRows b'.requireRows :=
  h.filterGroups (Cond.relation (rel_text _) (rel_text _))

/-- Drafts that group by related terms into related columns are related. -/
lemma draftRel_grouping {fs gs : List Fragment} {cs cs' : List Column} (h : L.DraftRel b b')
    (hf : List.Forall₂ (L.Rel b.ctx) fs gs) (hc : List.Forall₂ (L.ColumnRel b.ctx) cs cs') :
    L.DraftRel (b.grouping fs cs) (b'.grouping gs cs') :=
  { h with
    select := { h.select with groupBy := hf }
    grouped := rfl
    scope := scopeRel_columns hc }

/-- A group stage groups the rows by its key into its columns. -/
lemma run_groupStage (h : L.DraftRel b b') (hr : L.Selects L.data b.scope) {g : Group}
    (hid : ∀ e ∈ g.id, L.Known e) (ho : ∀ o ∈ g.outputs, L.Known o.2) :
    L.Run none (L.After b.ctes) (b.groupStage g) (b'.groupStage g) := by
  unfold Draft.groupStage
  refine L.bind (run_groupingReady h hr) fun c c' hc => ?_
  refine L.bind (run_render hc.1 (run_groupKey hid)) fun k k' hk => ?_
  refine L.bind (run_render hc.1 (run_accumulatorColumns "$group" ho)) fun cs cs' hcs => ?_
  obtain ⟨hid, hterms⟩ := hk
  refine L.pure ?_
  dsimp only
  have hcolumns (json : Bool) := List.Forall₂.cons (columnRel_id json hid) hcs
  rw [isEmpty_eq_of_forall₂ hterms]
  split
  · exact ⟨draftRel_grouping (draftRel_requireRows hc.1) hterms (hcolumns _), hc.2⟩
  · exact ⟨draftRel_grouping hc.1 hterms (hcolumns _), hc.2⟩

/-- A count is taken over all rows. -/
lemma run_countStage (h : L.DraftRel b b') (hr : L.Selects L.data b.scope) (field : Path) :
    L.Run none (L.After b.ctes) (b.countStage field) (b'.countStage field) := by
  unfold Draft.countStage
  refine L.bind (run_groupingReady h hr) fun c c' hc => L.pure ⟨?_, hc.2⟩
  exact draftRel_grouping (draftRel_requireRows hc.1) hc.1.select.groupBy
    (.cons (columnRel_count field) .nil)

/-! ## Buckets -/

/-- The id of a bucket is a literal. -/
lemma run_bucketId {Γ : Ctx} (asText : Bool) (l : Literal) :
    L.Keeps (some Γ) (L.Rel Γ) (Draft.bucketId asText l) :=
  run_ite (fun _ => L.pure (rel_string _)) fun _ => L.literal

/-- A test for a range is related if its subjects are. -/
lemma run_between {Γ : Ctx} {f g : Fragment} (h : L.Rel Γ f g) (low high : Literal) :
    L.Run (some Γ) (L.Cond Γ) (Draft.between f low high) (Draft.between g low high) := by
  refine L.bind L.literal fun l l' hl => L.bind L.literal fun u u' hu => L.pure ?_
  mono

/-- The tests of the buckets are related, each with its own boundary. -/
lemma run_buckets {Γ : Ctx} {f g : Fragment} (h : L.Rel Γ f g) (boundaries : List Literal) :
    L.Run (some Γ)
      (List.Forall₂ fun p p' : Condition × Literal => L.Cond Γ p.1 p'.1 ∧ p.2 = p'.2)
      (Draft.buckets f boundaries) (Draft.buckets g boundaries) := by
  induction boundaries with
  | nil => exact L.pure .nil
  | cons low rest ih =>
    cases rest with
    | nil => exact L.pure .nil
    | cons high rest =>
      exact L.bind (run_between h low high) fun c c' hc => L.bind ih fun ps ps' hps =>
        L.pure (.cons ⟨hc, rfl⟩ hps)

/-- The ranks of buckets are chosen by their tests. -/
lemma rel_bucketRank {Γ : Ctx} {cs cs' : List Condition} (h : List.Forall₂ (L.Cond Γ) cs cs')
    (n : Nat) : L.Rel Γ (Draft.bucketRank cs n) (Draft.bucketRank cs' n) := by
  have hzip : ∀ ns : List Nat, List.Forall₂ (L.Branch Γ)
      ((cs.zip ns).map fun p => (p.1.fragment, Fragment.int p.2))
      ((cs'.zip ns).map fun p => (p.1.fragment, Fragment.int p.2)) := by
    induction h with
    | nil => exact fun _ => .nil
    | cons hc _ ih =>
      intro ns
      cases ns with
      | nil => exact .nil
      | cons n ns => exact .cons (branch_cond hc (rel_int _)) (ih ns)
  unfold Draft.bucketRank
  rw [h.length_eq]
  exact rel_call₁ (rel_cases_some (hzip _) (rel_int _))

/-- Keys of a bucketing with related texts. -/
inductive BucketKeyRel (L : FragmentLogic) (Γ : Ctx) :
    Draft.BucketKey → Draft.BucketKey → Prop where
  | mk {f g c c' rank rank'} : L.Rel Γ f g → L.Cond Γ c c' → Option.Rel (L.Rel Γ) rank rank' →
    BucketKeyRel L Γ ⟨f, c, rank⟩ ⟨g, c', rank'⟩

/-- The subject of buckets is known, so it is related to itself. -/
lemma run_bucketSubject {Γ : Ctx} {spec : Bucket} (hs : L.Known spec.groupBy) (numeric : Bool) :
    L.Keeps (some Γ) (L.Rel Γ) (Draft.bucketSubject spec numeric) :=
  run_ite (fun _ => run_typed hs _) fun _ => run_value hs

/-- All parts of the key of buckets are made from one subject. -/
lemma run_bucketKey {Γ : Ctx} {spec : Bucket} (hs : L.Known spec.groupBy)
    (numeric asText : Bool) :
    L.Keeps (some Γ) (BucketKeyRel L.toFragmentLogic Γ) (Draft.bucketKey spec numeric asText) := by
  refine L.inlined (L.bind (run_bucketSubject hs numeric) fun f g hfg => ?_)
  refine L.bind (run_buckets hfg spec.boundaries) fun ps ps' hps => ?_
  refine L.bind (run_mapM hps (A := L.Branch Γ) ?_) fun bs bs' hbs => ?_
  · rintro ⟨c, l⟩ ⟨c', _⟩ ⟨hc, rfl⟩
    exact L.bind (run_bucketId asText l) fun v v' hv => L.pure (branch_cond hc hv)
  · refine L.bind (run_optionMapM fun l _ => run_bucketId asText l) fun o o' ho => ?_
    refine L.bind (run_between hfg _ _) fun c c' hc => L.pure (.mk (rel_cases hbs ho) hc ?_)
    have hcs : List.Forall₂ (L.Cond Γ) (ps.map Prod.fst) (ps'.map Prod.fst) :=
      List.rel_map (fun _ _ hp => hp.1) hps
    split
    · exact .some (rel_bucketRank hcs _)
    · exact .none

/-- Drafts with related bucket keys are related. -/
lemma draftRel_bucketed {k k' : Draft.BucketKey} {cs cs' : List Column} (h : L.DraftRel b b')
    (hk : BucketKeyRel L.toFragmentLogic b.ctx k k')
    (hcs : List.Forall₂ (L.ColumnRel b.ctx) cs cs') :
    L.DraftRel (b.bucketed k cs) (b'.bucketed k' cs') := by
  obtain ⟨hid, _, hrank⟩ := hk
  have hc := draftRel_grouping h (.cons hid .nil) (.cons (columnRel_id false hid) hcs)
  cases hrank with
  | none =>
    exact { hc with
      select := { hc.select with orderBy := .cons (.mk hid) .nil }
      ordering := rfl }
  | some hr => exact { hc with select := { hc.select with orderBy := .cons (.mk hr) .nil } }

/-- A bucket stage filters by the range unless there is a default. -/
lemma run_bucketStage (h : L.DraftRel b b') (hr : L.Selects L.data b.scope) {spec : Bucket}
    (hs : L.Known spec.groupBy) (ho : ∀ o ∈ spec.outputs, L.Known o.2) :
    L.Run none (L.After b.ctes) (b.bucketStage spec) (b'.bucketStage spec) := by
  unfold Draft.bucketStage
  refine L.bind (run_groupingReady h hr) fun c c' hc => run_warn_if ?_
  refine L.bind (run_render hc.1 (run_bucketKey hs _ _)) fun k k' hk => ?_
  refine L.bind (run_render hc.1 (run_bucketColumns "$bucket" ho)) fun cs cs' hcs => ?_
  have hrange : L.Cond c.ctx k.inRange k'.inRange := by
    obtain ⟨_, hrange, _⟩ := hk
    exact hrange
  refine L.pure ?_
  split
  · exact ⟨draftRel_bucketed (hc.1.filter hrange) hk hcs, hc.2⟩
  · exact ⟨draftRel_bucketed hc.1 hk hcs, hc.2⟩

/-- The number and the key of a bucket stand beside the row. -/
lemma selects_numbered {c : Draft} (hn : L.Numbers L.data c.scope) (count : Nat) (f : Fragment) :
    L.Selects L.data (c.numbered count f).scope := by
  intro d
  have hlist := hn d
  simp only [Scope.selectItems, List.map_append, List.append_assoc] at hlist
  simpa only [Scope.selectItems, Draft.numbered, Draft.withScope, List.map_append]

/-- Rows are numbered by a window function over related texts. -/
lemma draftRel_numbered (hw : L.Windowing) {f g : Fragment} (h : L.DraftRel b b') (count : Nat)
    (hf : L.Rel b.ctx f g) : L.DraftRel (b.numbered count f) (b'.numbered count g) := by
  refine h.withScope { h.scope with extras := List.rel_append h.scope.extras ?_ }
  refine .cons (.mk (rel_append (rel_append ?_ (rel_over hw)) ?_)) (.cons (.mk hf) .nil)
  · mono
  · mono

/-- Groups by number read two columns that are in sight. -/
lemma draftRel_groupedByNumber {label : String} {cs cs' : List Column} (h : L.DraftRel b b')
    (hbucket : b.ctx.Sees label "bucket") (hkey : b.ctx.Sees label "bucket_key")
    (hcs : List.Forall₂ (L.ColumnRel b.ctx) cs cs') :
    L.DraftRel (b.groupedByNumber label cs) (b'.groupedByNumber label cs') := by
  have hbucket : L.Rel b.ctx (Fragment.column label "bucket") (Fragment.column label "bucket") :=
    rel_column hbucket
  have hkey : L.Rel b.ctx (Fragment.column label "bucket_key")
      (Fragment.column label "bucket_key") := rel_column hkey
  have hbounds : L.Rel b.ctx (Draft.bucketBounds label) (Draft.bucketBounds label) := by
    unfold Draft.bucketBounds
    refine rel_call₂ ?_ ?_
    · exact rel_separated (rel_string _) (rel_call₁ hkey)
    · exact rel_separated (rel_string _) (rel_call₁ hkey)
  have hg := draftRel_grouping h (.cons hbucket .nil)
    (.cons (columnRel_id true hbounds) hcs)
  exact { hg with select := { hg.select with orderBy := .cons (.mk hbucket) .nil } }

/-- Buckets of equal size group numbered rows, so the numbers have to be selected. -/
lemma run_bucketAutoStage (hw : L.Windowing) (h : L.DraftRel b b')
    (hr : L.Selects L.data b.scope)
    (hn : ∀ s, Rewrites L.data b.scope s → L.Numbers L.data s) {spec : BucketAuto}
    (hs : L.Known spec.groupBy)
    (ho : ∀ o ∈ spec.outputs, L.Known o.2) :
    L.Run none (L.After b.ctes) (b.bucketAutoStage spec) (b'.bucketAutoStage spec) := by
  have hgranularity : L.Keeps none Eq
      (spec.granularity.forM fun name => Render.warn (.granularity name)) := by
    cases spec.granularity with
    | none => exact L.pure rfl
    | some name => exact L.warn
  unfold Draft.bucketAutoStage
  refine run_warn (L.bind hgranularity fun _ _ _ => ?_)
  refine L.bind (run_groupingRow h hr) ?_
  rintro c c' ⟨hc, hrow⟩
  refine L.bind (run_render hc.1 (run_typed hs .number)) fun f g hfg => ?_
  refine L.bind (run_wrapAs (draftRel_numbered hw hc.1 spec.buckets hfg)
    (selects_numbered (hn _ hrow) _ f)) ?_
  rintro ⟨e, label⟩ ⟨e', _⟩ ⟨_, he, rfl, sees⟩
  refine L.bind (run_render he.1 (run_bucketColumns "$bucketAuto" ho))
    fun cs cs' hcs => ?_
  have hbucket := sees _ (List.mem_append_right _ List.mem_cons_self) "bucket" rfl
  have hkey := sees _ (List.mem_append_right _ (List.mem_cons_of_mem _ List.mem_cons_self))
    "bucket_key" rfl
  exact L.pure (hc.trans ⟨draftRel_groupedByNumber he.1 hbucket hkey hcs, he.2⟩)

end RenderLogic

end PipelineSql
