import PipelineSql.Proofs.Relation.Expr
import PipelineSql.Proofs.Relation.Query
import PipelineSql.Draft.Rows

/-!
# Relations on drafts

Related drafts have related clauses, scopes and named subqueries, and agree on all that decides how
a stage refines them. A stage may add named subqueries and never drops one.
-/

namespace PipelineSql

/-- What the clauses of a draft may refer to. -/
def Draft.ctx (b : Draft) : Ctx :=
  b.query.ctx (b.ctes.map Cte.signature)

namespace FragmentLogic

variable (L : FragmentLogic)

/-- Drafts with related parts. -/
structure DraftRel (b b' : Draft) : Prop where
  select : L.SelectRel b.ctx b.query b'.query
  plain : b.query.ctes = [] ∧ b'.query.ctes = []
  ctes : L.CtesRel [] b.ctes b'.ctes
  scope : L.ScopeRel b.ctx b.scope b'.scope
  grouped : b.grouped = b'.grouped
  windowed : b.windowed = b'.windowed
  sortedByAlias : b.sortedByAlias = b'.sortedByAlias
  ordering : b.ordering = b'.ordering

/-- The columns that a row is selected as make an accepted list, whatever the release. -/
def Selects (data : String) (s : Scope) : Prop :=
  ∀ d, L.Lists ((s.selectItems d data).map SelectItem.column?)

/-- So do these names with those of the number and the key of a bucket. -/
def Numbers (data : String) (s : Scope) : Prop :=
  ∀ d, L.Lists ((s.selectItems d data).map SelectItem.column? ++
    [some "bucket", some "bucket_key"])

/-- Related drafts that keep the given subqueries. -/
def After (ctes : List Cte) (b b' : Draft) : Prop :=
  L.DraftRel b b' ∧ ctes ⊆ b.ctes

variable {L} {b b' : Draft}

lemma After.trans {cs : List Cte} {c c' : Draft} (h : L.After cs b b') (h' : L.After b.ctes c c') :
    L.After cs c c' :=
  ⟨h'.1, fun _ hx => h'.2 (h.2 hx)⟩

/-- A draft over a source is related if the source is. -/
lemma draftRel_ofSource {s s' : Source} {scope scope' : Scope} {cs cs' : List Cte}
    (hs : L.SourceRel (Draft.ofSource s scope cs).ctx s s')
    (hscope : L.ScopeRel (Draft.ofSource s scope cs).ctx scope scope')
    (hc : L.CtesRel [] cs cs') :
    L.DraftRel (.ofSource s scope cs) (.ofSource s' scope' cs') where
  select := selectRel_source hs
  plain := ⟨rfl, rfl⟩
  ctes := hc
  scope := hscope
  grouped := rfl
  windowed := rfl
  sortedByAlias := rfl
  ordering := rfl

/-! ## Refining a draft -/

/-- A source that is added to a draft is in sight with the columns that it lists. -/
lemma sees_join {j : Join} {r : RowSource} {column : String} (hr : j.source.rowSource? = some r)
    (hc : (b.join j).ctx.Offers column r.offer) : (b.join j).ctx.Sees r.label column := by
  refine Ctx.sees_own (List.mem_append_right _ (List.mem_filterMap.2 ⟨j, ?_, hr⟩)) hc
  exact List.mem_append_right _ List.mem_cons_self

/-- All that is in sight stays in sight when a source is added. -/
lemma ctx_le_join (b : Draft) (j : Join) : b.ctx ≤ (b.join j).ctx := by
  refine ⟨?_, List.nil_subset _, List.Subset.refl _⟩
  intro r hr
  refine List.mem_append_left _ ?_
  simp only [Draft.ctx, Query.ctx, Query.rowSources, Draft.join, List.filterMap_append,
    List.mem_append] at hr ⊢
  tauto

/-- All that is in sight stays in sight when a named subquery is added. -/
lemma ctx_le_addCte (b : Draft) (w : Cte) :
    b.ctx ≤ Draft.ctx { b with ctes := b.ctes ++ [w] } :=
  ⟨List.subset_append_left _ _, List.nil_subset _,
    List.map_subset _ (List.subset_append_left _ _)⟩

section Refine

variable (h : L.DraftRel b b')

include h

lemma DraftRel.withScope {s s' : Scope} (hs : L.ScopeRel b.ctx s s') :
    L.DraftRel (b.withScope s) (b'.withScope s') :=
  { h with scope := hs }

lemma DraftRel.filter {c c' : Condition} (hc : L.Cond b.ctx c c') :
    L.DraftRel (b.filter c) (b'.filter c') :=
  { h with
    select := { h.select with filters := List.rel_append h.select.filters (.cons hc .nil) } }

lemma DraftRel.filterGroups {c c' : Condition} (hc : L.Cond b.ctx c c') :
    L.DraftRel (b.filterGroups c) (b'.filterGroups c') :=
  { h with select := { h.select with having := List.rel_append h.select.having (.cons hc .nil) } }

lemma DraftRel.withRows (rows : RowWindow) :
    L.DraftRel { b with query := { b.query with rows } }
      { b' with query := { b'.query with rows } } :=
  { h with select := { h.select with rows := rfl } }

lemma DraftRel.join {j j' : Join} (hj : L.JoinRel (b.join j).ctx j j') :
    L.DraftRel (b.join j) (b'.join j') := by
  have hs := h.select.mono (ctx_le_join b j)
  exact { h with
    select := { hs with joins := List.rel_append hs.joins (.cons hj .nil) }
    scope := h.scope.mono (ctx_le_join b j) }

/-- A named subquery that may refer to those before it, and to itself if it is recursive. -/
lemma DraftRel.addCte {w w' : Cte} (hw : L.CteRel (w.inSight (b.ctes.map Cte.signature)) w w') :
    L.DraftRel { b with ctes := b.ctes ++ [w] } { b' with ctes := b'.ctes ++ [w'] } := by
  have le := ctx_le_addCte b w
  exact { h with
    select := h.select.mono le
    ctes := h.ctes.append (by rwa [List.append_nil])
    scope := h.scope.mono le }

/-- A join of foreign documents, collected by key, whose array becomes a field. -/
lemma DraftRel.joinFound {q q' : Query} {f g : Fragment} (l : Found)
    (hq : L.QueryRel (b.ctes.map Cte.signature) q q') (hkey : keyColumn ∈ q.columns)
    (hdocs : docsColumn ∈ q.columns) (hstored : ∀ key ∈ l.key, L.Stored key.source)
    (hf : L.Rel b.ctx f g) :
    let on (value : Fragment) := Condition.relation .eq (Fragment.column l.source keyColumn) value
    let c := b.join ⟨.left, .subquery q l.source, some (on f)⟩
    let c' := b'.join ⟨.left, .subquery q' l.source, some (on g)⟩
    L.DraftRel (c.withScope { c.scope with lookups := c.scope.lookups ++ [l] })
      (c'.withScope { c'.scope with lookups := c'.scope.lookups ++ [l] }) := by
  intro on c c'
  have sees {column : String} (hcolumn : column ∈ q.columns) : c.ctx.Sees l.source column :=
    sees_join (r := ⟨l.source, .columns q.columns⟩) rfl hcolumn
  have hc : L.DraftRel c c' := by
    refine h.join (joinRel_mk (sourceRel_subquery _ hq (List.Subset.refl _)) (.some ?_))
    exact .relation (rel_column (sees hkey)) (L.mono (ctx_le_join b _) hf)
  refine hc.withScope { hc.scope with lookups := List.rel_append hc.scope.lookups ?_ }
  exact .cons (.mk (sees hdocs) hstored) .nil

/-- A join of the elements of an array, which become a field. -/
lemma DraftRel.joinUnwound {f g : Fragment} {kind : JoinKind} {on : Option Condition} (u : Unwound)
    (hf : L.Rel b.ctx f g) (hon : ∀ Γ, Option.Rel (L.Cond Γ) on on) :
    let c := b.join ⟨kind, .expr f u.source [indexColumn, valueColumn], on⟩
    let c' := b'.join ⟨kind, .expr g u.source [indexColumn, valueColumn], on⟩
    L.DraftRel (c.withScope { c.scope with unwinds := c.scope.unwinds ++ [u] })
      (c'.withScope { c'.scope with unwinds := c'.scope.unwinds ++ [u] }) := by
  intro c c'
  have sees {column : String} (hcolumn : column ∈ [indexColumn, valueColumn]) :
      c.ctx.Sees u.source column :=
    sees_join (r := ⟨u.source, .columns [indexColumn, valueColumn]⟩) rfl hcolumn
  have hc : L.DraftRel c c' :=
    h.join (joinRel_mk (sourceRel_expr (L.mono (ctx_le_join b _) hf)) (hon _))
  refine hc.withScope { hc.scope with unwinds := List.rel_append hc.scope.unwinds ?_ }
  exact .cons (.mk (sees (by decide)) (sees (by decide))) .nil

lemma DraftRel.rows : b.query.rows = b'.query.rows :=
  h.select.rows

lemma DraftRel.acceptsRows : b.acceptsRows = b'.acceptsRows := by
  unfold Draft.acceptsRows
  rw [h.grouped, h.windowed, h.rows]

lemma DraftRel.acceptsGrouping : b.acceptsGrouping = b'.acceptsGrouping := by
  unfold Draft.acceptsGrouping
  rw [h.acceptsRows, isEmpty_eq_of_forall₂ h.select.orderBy]

lemma DraftRel.acceptsReshape : b.acceptsReshape = b'.acceptsReshape := by
  unfold Draft.acceptsReshape
  rw [h.grouped, h.windowed, h.sortedByAlias]

/-! ## Finishing a draft -/

lemma DraftRel.queryRel {items items' : List SelectItem}
    (hl : L.Lists (items.map SelectItem.column?))
    (hi : List.Forall₂ (L.ItemRel b.ctx) items items') :
    L.QueryRel (b.ctes.map Cte.signature) { b.query with items }
      { b'.query with items := items' } :=
  queryRel_plain h.plain.1 h.plain.2 { h.select with } hl hi

lemma DraftRel.finished {d d' : Dialect} (hd : L.Speaks d d') {dataColumn : String}
    (hr : L.Selects dataColumn b.scope) :
    L.QueryRel (b.ctes.map Cte.signature)
      { b.query with items := b.scope.selectItems d dataColumn }
      { b'.query with items := b'.scope.selectItems d' dataColumn } :=
  h.queryRel (hr d) (h.scope.selectItems hd dataColumn)

/-- The columns of a finished draft are those of its select list. -/
lemma DraftRel.columns_finished (items : List SelectItem) (ctes : List Cte) :
    Query.columns { b.query with items, ctes } = items.filterMap SelectItem.column? := by
  have hc := h.select.compound.1
  cases hq : b.query
  rw [hq] at hc
  obtain rfl := hc
  simp only [Query.columns]

lemma DraftRel.documentItem {d d' : Dialect} (hs : L.Speaks d d') (dataColumn : String) :
    L.ItemRel b.ctx
      (match b.scope.doc with
        | some (.column _ name) =>
          if name = dataColumn && !b.scope.hasPending then ⟨b.scope.documentValue d, none⟩
          else .named (b.scope.documentValue d) dataColumn
        | _ => .named (b.scope.documentValue d) dataColumn)
      (match b'.scope.doc with
        | some (.column _ name) =>
          if name = dataColumn && !b'.scope.hasPending then ⟨b'.scope.documentValue d', none⟩
          else .named (b'.scope.documentValue d') dataColumn
        | _ => .named (b'.scope.documentValue d') dataColumn) := by
  have hv := h.scope.documentValue hs
  have hd := h.scope.doc
  rw [← h.scope.hasPending]
  generalize b.scope.doc = o, b'.scope.doc = o' at hd
  cases hd with
  | none => exact .mk hv
  | some hd =>
    cases hd with
    | computed _ => exact .mk hv
    | column _ =>
      dsimp only
      split
      · exact .mk hv
      · exact .mk hv

end Refine

/-- The document of a row is selected under the name of its column. -/
lemma documentItem_column (s : Scope) (d : Dialect) (dataColumn : String) :
    SelectItem.column?
      (match s.doc with
        | some (.column _ name) =>
          if name = dataColumn && !s.hasPending then ⟨s.documentValue d, none⟩
          else .named (s.documentValue d) dataColumn
        | _ => .named (s.documentValue d) dataColumn) = some dataColumn := by
  split
  · next source name hd =>
    split
    · next hc =>
      simp only [Bool.and_eq_true, Bool.not_eq_true', decide_eq_true_eq] at hc
      rw [documentValue_of_not_hasPending hd hc.2, hc.1]
      rfl
    · rfl
  · rfl

/-! ## Order -/

/-- An environment at the rows of a draft. -/
lemma EnvRel.atScope {Γ : Ctx} {data : String} {env env' : Env} {s s' : Scope}
    (h : L.EnvRel data none env env') (hs : L.ScopeRel Γ s s') :
    L.EnvRel data (some Γ) { env with scope := s } { env' with scope := s' } :=
  h.within nofun hs

/-- Related fragments are aliases only together. -/
lemma isAlias_eq {Γ : Ctx} {f g : Fragment} (h : L.Rel Γ f g) :
    Draft.isAlias f = Draft.isAlias g := by
  have key : ∀ f g : Fragment, L.Rel Γ f g ∨ L.Rel Γ g f → Draft.isAlias f = true →
      Draft.isAlias g = true := by
    intro f g hfg hf
    unfold Draft.isAlias at hf
    split at hf
    · next name =>
      obtain rfl : g = [.token (.ident name)] := by
        obtain hfg | hgf := hfg
        · exact (L.name hfg rfl).1 rfl
        · exact (L.name hgf rfl).2 rfl
      rfl
    · cases hf
  exact Bool.eq_iff_iff.2 ⟨key f g (.inl h), key g f (.inr h)⟩

lemma sortValue_rel {Γ : Ctx} {data : String} {env env' : Env} {s s' : Scope}
    (h : L.EnvRel data none env env')
    (hs : L.ScopeRel Γ s s') (path : Path) (own : Bool) :
    L.JsonRel Γ (Draft.sortValue env s path own) (Draft.sortValue env' s' path own) := by
  have hr := hs.resolve path own
  have hv := (h.atScope hs).fieldValue (hs.resolve path false) none
  unfold Draft.sortValue
  rw [(L.features h.speaks).jsonType]
  generalize s.resolve path own = r, s'.resolve path own = r' at hr
  cases hr with
  | value hf => exact ⟨hf, isAlias_eq hf⟩
  | place hl =>
    have hdot := hl.dotFragment
    obtain ⟨hf⟩ := hl
    dsimp only
    split
    · exact ⟨hdot, rfl⟩
    · exact ⟨hv, rfl⟩
  | missing => exact ⟨rel_null, rfl⟩

lemma orderTerm_rel {Γ : Ctx} {f g : Fragment} (order : SortOrder) (h : L.Rel Γ f g) :
    L.OrderRel Γ (Draft.orderTerm f order) (Draft.orderTerm g order) := by
  cases order <;> exact .mk h

lemma orderTerms_rel {Γ : Ctx} {data : String} {env env' : Env} {s s' : Scope}
    (h : L.EnvRel data none env env')
    (hs : L.ScopeRel Γ s s') (keys : List SortKey) (own : Bool) :
    List.Forall₂ (L.OrderRel Γ) (Draft.orderTerms env s keys own).1
        (Draft.orderTerms env' s' keys own).1 ∧
      (Draft.orderTerms env s keys own).2 = (Draft.orderTerms env' s' keys own).2 := by
  unfold Draft.orderTerms
  induction keys with
  | nil => exact ⟨.nil, rfl⟩
  | cons k rest ih =>
    have hk := sortValue_rel h hs k.path own
    simp only [List.map_cons, List.any_cons]
    exact ⟨.cons (orderTerm_rel _ hk.1) ih.1, congrArg₂ or hk.2 ih.2⟩

end FragmentLogic

namespace RenderLogic

open FragmentLogic

variable {L : RenderLogic} {b b' : Draft}

/-- What is rendered against the rows of a draft sees its row sources. -/
lemma run_render {α : Type} {A : α → α → Prop} {r r' : Render α} (h : L.DraftRel b b')
    (hr : L.Run (some b.ctx) A r r') : L.Run none A (b.render r) (b'.render r') :=
  L.within (by simp) h.scope hr

/-- A finished draft has the columns of its select list. -/
lemma run_finish (h : L.DraftRel b b') (hr : L.Selects L.data b.scope) :
    L.Run none
      (fun q q' => L.QueryRel (b.ctes.map Cte.signature) q q' ∧
        ∃ d, q.columns = (b.scope.selectItems d L.data).filterMap SelectItem.column?)
      b.finish b'.finish := by
  refine L.bind L.read fun env env' henv => L.pure ?_
  rw [henv.dataColumn, henv.dataColumn']
  exact ⟨h.finished henv.speaks hr, _, h.columns_finished _ _⟩

/-- A draft finished as documents has the column of documents. -/
lemma run_finishDocument (h : L.DraftRel b b') (hl : L.Lists [some L.data]) :
    L.Run none (fun q q' => L.QueryRel (b.ctes.map Cte.signature) q q' ∧ L.data ∈ q.columns)
      b.finishDocument b'.finishDocument := by
  refine L.bind L.read fun env env' henv => L.pure ?_
  rw [henv.dataColumn, henv.dataColumn']
  have hcolumn := documentItem_column b.scope env.dialect L.data
  refine ⟨h.queryRel ?_ (.cons (h.documentItem henv.speaks _) .nil), ?_⟩
  · exact (congrArg (fun column => L.Lists [column]) hcolumn).mpr hl
  rw [h.columns_finished]
  exact List.mem_filterMap.2 ⟨_, List.mem_cons_self, hcolumn⟩

/-- Wrapping reads the environment once. -/
lemma wrapAs_eq (b : Draft) : b.wrapAs = do
    let label ← Render.newAlias "q"
    let env ← read
    return (Draft.ofSource
      (.subquery { b.query with items := b.scope.selectItems env.dialect env.dataColumn } label)
      (b.scope.wrapped label env.dataColumn) b.ctes, label) :=
  rfl

/-- A column of a draft over a finished query is in sight by its name. -/
lemma sees_subquery {q : Query} {label column : String} {scope : Scope} {ctes : List Cte}
    (h : column ∈ q.columns) :
    (Draft.ofSource (.subquery q label) scope ctes).ctx.Sees label column :=
  ⟨⟨label, .columns q.columns⟩, List.mem_cons_self, rfl, h⟩

/-- What is selected beside the row is a column of the finished query. -/
lemma extra_mem_columns (h : L.DraftRel b b') {i : SelectItem} {label : String} (d : Dialect)
    (dataColumn : String) (hi : i ∈ b.scope.extras) (hl : label ∈ i.label) :
    label ∈ Query.columns { b.query with items := b.scope.selectItems d dataColumn } := by
  have hc : i.column? = some label := by
    obtain ⟨value, _⟩ := i
    cases hl
    rfl
  rw [h.columns_finished]
  exact List.mem_filterMap.2 ⟨i, List.mem_append_right _ hi, hc⟩

/-- The row is that of the first, or selected from it under an alias. -/
def Rewrites (data : String) (s s₁ : Scope) : Prop :=
  s₁ = s ∨ ∃ label, s₁ = s.wrapped label data

/-- Related drafts around a draft, under the same alias. -/
structure WrapRel (L : RenderLogic) (b : Draft) (p p' : Draft × String) : Prop where
  scope : p.1.scope = b.scope.wrapped p.2 L.data
  after : L.After b.ctes p.1 p'.1
  label : p.2 = p'.2
  sees : ∀ i ∈ b.scope.extras, ∀ label ∈ i.label, p.1.ctx.Sees p.2 label

lemma run_wrapAs (h : L.DraftRel b b') (hr : L.Selects L.data b.scope) :
    L.Run none (WrapRel L b) b.wrapAs b'.wrapAs := by
  rw [wrapAs_eq, wrapAs_eq]
  refine run_alias fun label => L.bind L.read fun env env' henv => L.pure ?_
  rw [henv.dataColumn, henv.dataColumn']
  refine ⟨rfl, ⟨draftRel_ofSource ?_ ?_ h.ctes, List.Subset.refl _⟩, rfl, fun i hi label hl => ?_⟩
  · exact sourceRel_subquery _ (h.finished henv.speaks hr) (List.Subset.refl _)
  · refine h.scope.wrapped (d := env.dialect) fun c hc => sees_subquery ?_
    rwa [h.columns_finished]
  · exact sees_subquery (extra_mem_columns h _ _ hi hl)

lemma run_wrap (h : L.DraftRel b b') (hr : L.Selects L.data b.scope) :
    L.Run none (L.After b.ctes) b.wrap b'.wrap := by
  unfold Draft.wrap
  refine L.bind (run_wrapAs h hr) ?_
  rintro ⟨c, label⟩ ⟨c', _⟩ ⟨_, hc, rfl, _⟩
  rw [h.ordering]
  refine run_ite (fun _ => L.pure hc) fun _ => L.bind L.read fun env env' henv => L.pure ?_
  have hterms := orderTerms_rel henv hc.1.scope b'.ordering false
  exact ⟨{ hc.1 with select := { hc.1.select with orderBy := hterms.1 }, ordering := rfl }, hc.2⟩

/-- A draft that stays as it is keeps its subqueries. -/
lemma after_self (h : L.DraftRel b b') : L.After b.ctes b b' :=
  ⟨h, List.Subset.refl _⟩

lemma run_wrapIf (h : L.DraftRel b b') (hr : L.Selects L.data b.scope) (needed : Bool) :
    L.Run none (L.After b.ctes) (b.wrapIf needed) (b'.wrapIf needed) :=
  run_ite (fun _ => run_wrap h hr) fun _ => L.pure (after_self h)

lemma run_rowsReady (h : L.DraftRel b b') (hr : L.Selects L.data b.scope) :
    L.Run none (L.After b.ctes) b.rowsReady b'.rowsReady := by
  unfold Draft.rowsReady
  rw [h.acceptsRows]
  exact run_wrapIf h hr _

lemma run_groupingRow (h : L.DraftRel b b') (hr : L.Selects L.data b.scope) :
    L.Run none (fun c c' => L.After b.ctes c c' ∧ Rewrites L.data b.scope c.scope)
      b.groupingReady b'.groupingReady := by
  unfold Draft.groupingReady
  rw [h.acceptsGrouping]
  refine run_ite (fun _ => L.pure ⟨after_self h, .inl rfl⟩) fun _ => ?_
  exact L.bind (run_wrapAs h hr) fun p p' hp => L.pure ⟨hp.after, .inr ⟨_, hp.scope⟩⟩

lemma run_groupingReady (h : L.DraftRel b b') (hr : L.Selects L.data b.scope) :
    L.Run none (L.After b.ctes) b.groupingReady b'.groupingReady :=
  (run_groupingRow h hr).imp fun _ _ hc => hc.1

lemma run_reshapeReady (h : L.DraftRel b b') (hr : L.Selects L.data b.scope) :
    L.Run none (L.After b.ctes) b.reshapeReady b'.reshapeReady := by
  unfold Draft.reshapeReady
  rw [h.acceptsReshape]
  exact run_wrapIf h hr _

lemma run_uncut (h : L.DraftRel b b') (hr : L.Selects L.data b.scope) :
    L.Run none (L.After b.ctes) b.uncut b'.uncut := by
  unfold Draft.uncut
  rw [h.rows]
  exact run_wrapIf h hr _

end RenderLogic

end PipelineSql
