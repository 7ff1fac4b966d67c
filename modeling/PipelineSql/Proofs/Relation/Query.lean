import PipelineSql.Proofs.Relation.Render

/-!
# Relations on queries

A query that is finished is known by its layout and by the names of its columns. The clauses of a
query under construction are related one by one, with the row sources of the query in sight.
-/

namespace PipelineSql

/-- What the clauses of a query may refer to. -/
def Query.ctx (q : Query) (named : List (String × List String)) : Ctx :=
  { own := Query.rowSources q.source q.joins, named }

/-- The subqueries that the body of a named subquery may refer to: those in front of it, and itself
if it is recursive. -/
def Cte.inSight (c : Cte) (named : List (String × List String)) : List (String × List String) :=
  if c.recursive then c.signature :: named else named

lemma Cte.inSight_mono (c : Cte) {named wider : List (String × List String)}
    (sub : named ⊆ wider) : c.inSight named ⊆ c.inSight wider := by
  unfold Cte.inSight
  split
  · exact List.cons_subset_cons _ sub
  · exact sub

lemma Cte.inSight_subset (c : Cte) (named : List (String × List String)) :
    c.inSight named ⊆ c.signature :: named := by
  unfold Cte.inSight
  split
  · exact List.Subset.refl _
  · exact List.subset_cons_self _ _

namespace Query

mutual

/-- The releases lay a query out alike. -/
lemma fragment_eq (d d' : Dialect) : ∀ q : Query, q.fragment d = q.fragment d'
  | ⟨ctes, _, _, source, joins, _, _, _, _, _, none⟩ => by
    simp only [fragment, fromClause_eq d d' source, joinClauses_eq d d' joins]
    exact congrArg (withKeyword d ctes ++ ·) (cteScopes_eq d d' ctes _)
  | ⟨ctes, _, _, _, _, _, _, _, _, _, some c⟩ => by
    simp only [fragment, compoundFragment_eq d d' c]
    exact congrArg (withKeyword d ctes ++ ·) (cteScopes_eq d d' ctes _)

lemma cteScopes_eq (d d' : Dialect) : ∀ (cs : List Cte) (body : Fragment),
    cteScopes d cs body = cteScopes d' cs body
  | [], _ => by simp only [cteScopes]
  | c :: rest, body => by
    simp only [cteScopes, cteFragment_eq d d' c, cteScopes_eq d d' rest body]

lemma cteFragment_eq (d d' : Dialect) : ∀ c : Cte, cteFragment d c = cteFragment d' c
  | ⟨_, _, query, _, _⟩ => by simp only [cteFragment, fragment_eq d d' query]

lemma fromClause_eq (d d' : Dialect) : ∀ source : Option Source,
    fromClause d source = fromClause d' source
  | none => by simp only [fromClause]
  | some s => by simp only [fromClause, sourceFragment_eq d d' s]

lemma sourceFragment_eq (d d' : Dialect) : ∀ s : Source, sourceFragment d s = sourceFragment d' s
  | .table _ | .dual | .expr .. => by simp only [sourceFragment]
  | .subquery q _ => by simp only [sourceFragment, fragment_eq d d' q]

lemma joinClauses_eq (d d' : Dialect) : ∀ js : List Join, joinClauses d js = joinClauses d' js
  | [] => by simp only [joinClauses]
  | j :: rest => by simp only [joinClauses, joinFragment_eq d d' j, joinClauses_eq d d' rest]

lemma joinFragment_eq (d d' : Dialect) : ∀ j : Join, joinFragment d j = joinFragment d' j
  | ⟨_, source, _⟩ => by simp only [joinFragment, sourceFragment_eq d d' source]

lemma compoundFragment_eq (d d' : Dialect) : ∀ c : Compound,
    compoundFragment d c = compoundFragment d' c
  | ⟨left, _, _, right⟩ => by
    simp only [compoundFragment, fragment_eq d d' left, fragment_eq d d' right]

end

end Query

/-- The base of the name of a subquery. A recursive one follows a graph, any other holds the input
of facets. -/
def Cte.base (c : Cte) : String :=
  if c.recursive then "graph" else "facet"

namespace FragmentLogic

variable (L : FragmentLogic)

/-- Finished queries with related layouts and the same columns. -/
structure QueryRel (named : List (String × List String)) (q q' : Query) : Prop where
  layout : ∀ d, L.Rel { named } (q.fragment d) (q'.fragment d)
  columns : q.columns = q'.columns
  compound : q.compound.isNone = q'.compound.isNone
  orderBy : q.orderBy.isEmpty = q'.orderBy.isEmpty
  rows : q.rows = q'.rows

/-- Named subqueries with related layouts and the same columns, whose name tells what they hold. -/
structure CteRel (named : List (String × List String)) (c c' : Cte) : Prop where
  layout : ∀ d, L.Rel { named } (Query.cteFragment d c) (Query.cteFragment d c')
  numbered : Numbered c.base c.name
  signature : c.signature = c'.signature
  recursive : c.recursive = c'.recursive

/-- Lists of named subqueries, each of which may refer to those in front of it, and to itself if it
is recursive. -/
inductive CtesRel : List (String × List String) → List Cte → List Cte → Prop where
  | nil {named} : CtesRel named [] []
  | cons {named c c' cs cs'} : L.CteRel (c.inSight named) c c' →
    CtesRel (c.signature :: named) cs cs' → CtesRel named (c :: cs) (c' :: cs')

/-- Sources with related layouts and the same columns. -/
structure SourceRel (Γ : Ctx) (s s' : Source) : Prop where
  layout : ∀ d, L.Rel Γ (Query.sourceFragment d s) (Query.sourceFragment d s')
  rowSource : s.rowSource? = s'.rowSource?

/-- Joins with related layouts and the same columns. -/
structure JoinRel (Γ : Ctx) (j j' : Join) : Prop where
  layout : ∀ d, L.Rel Γ (Query.joinFragment d j) (Query.joinFragment d j')
  rowSource : j.source.rowSource? = j'.source.rowSource?

/-- Sort terms of one direction. -/
inductive OrderRel (Γ : Ctx) : OrderTerm → OrderTerm → Prop where
  | mk {f g direction nullsFirst} :
    L.Rel Γ f g → OrderRel Γ ⟨f, direction, nullsFirst⟩ ⟨g, direction, nullsFirst⟩

/-- Queries with related clauses, apart from what they select. -/
structure SelectRel (Γ : Ctx) (q q' : Query) : Prop where
  distinct : q.distinct = q'.distinct
  source : Option.Rel (L.SourceRel Γ) q.source q'.source
  joins : List.Forall₂ (L.JoinRel Γ) q.joins q'.joins
  filters : List.Forall₂ (L.Cond Γ) q.filters q'.filters
  groupBy : List.Forall₂ (L.Rel Γ) q.groupBy q'.groupBy
  having : List.Forall₂ (L.Cond Γ) q.having q'.having
  orderBy : List.Forall₂ (L.OrderRel Γ) q.orderBy q'.orderBy
  rows : q.rows = q'.rows
  compound : q.compound = none ∧ q'.compound = none

variable {L} {Γ : Ctx}

/-! ## More in sight -/

section Mono

variable {named wider : List (String × List String)} (sub : named ⊆ wider)

/-- A query as a row source, or a named subquery, is placed where more subqueries have names. -/
lemma le_of_named_subset {Δ : Ctx} (h : named ⊆ Δ.named) : ({ named } : Ctx) ≤ Δ :=
  ⟨List.nil_subset _, List.nil_subset _, h⟩

include sub

lemma QueryRel.mono {q q' : Query} (h : L.QueryRel named q q') : L.QueryRel wider q q' :=
  { h with layout := fun d => L.mono (le_of_named_subset sub) (h.layout d) }

lemma CteRel.mono {c c' : Cte} (h : L.CteRel named c c') : L.CteRel wider c c' :=
  { h with layout := fun d => L.mono (le_of_named_subset sub) (h.layout d) }

end Mono

/-- One more subquery at the end, which may refer to all of them. -/
lemma CtesRel.append {named : List (String × List String)} {cs cs' : List Cte} {w w' : Cte}
    (h : L.CtesRel named cs cs') (hw : L.CteRel (w.inSight (cs.map Cte.signature ++ named)) w w') :
    L.CtesRel named (cs ++ [w]) (cs' ++ [w']) := by
  induction h with
  | nil => exact .cons hw .nil
  | cons hc _ ih =>
    refine .cons hc (ih (hw.mono (w.inSight_mono fun x hx => ?_)))
    simpa [or_left_comm] using hx

/-- A subquery sees those in front of it, and itself if it is recursive. -/
lemma CtesRel.cte {named : List (String × List String)} {cs' before after : List Cte} {c : Cte}
    (h : L.CtesRel named (before ++ c :: after) cs') :
    ∃ c', L.CteRel (c.inSight (before.map Cte.signature ++ named)) c c' := by
  induction before generalizing named cs' with
  | nil =>
    cases h with
    | cons hc _ => exact ⟨_, hc⟩
  | cons first before ih =>
    cases h with
    | cons _ hrest =>
      obtain ⟨c', hc⟩ := ih hrest
      refine ⟨c', hc.mono (c.inSight_mono fun x hx => ?_)⟩
      simpa [or_left_comm] using hx

lemma CtesRel.isEmpty {named : List (String × List String)} {cs cs' : List Cte}
    (h : L.CtesRel named cs cs') : cs.isEmpty = cs'.isEmpty := by
  cases h <;> rfl

section MonoCtx

variable {Δ : Ctx} (le : Γ ≤ Δ)

include le

lemma OrderRel.mono {t t' : OrderTerm} (h : L.OrderRel Γ t t') : L.OrderRel Δ t t' := by
  cases h with
  | mk hf => exact .mk (L.mono le hf)

/-- Clauses stay related when more is in sight. -/
lemma SelectRel.mono {q q' : Query} (h : L.SelectRel Γ q q') : L.SelectRel Δ q q' :=
  { h with
    source := by
      have hs := h.source
      generalize q.source = o, q'.source = o' at hs
      cases hs with
      | none => exact .none
      | some hs => exact .some ⟨fun d => L.mono le (hs.layout d), hs.rowSource⟩
    joins := h.joins.imp fun _ _ hj => ⟨fun d => L.mono le (hj.layout d), hj.rowSource⟩
    filters := h.filters.imp fun _ _ hc => hc.mono le
    groupBy := h.groupBy.imp fun _ _ hf => L.mono le hf
    having := h.having.imp fun _ _ hc => hc.mono le
    orderBy := h.orderBy.imp fun _ _ ht => ht.mono le }

end MonoCtx

/-! ## Sources -/

lemma rel_newline : L.Rel Γ Query.newline Query.newline :=
  rel_ofToken rfl

attribute [mono] rel_newline

@[mono]
lemma rel_nested {f g : Fragment} (h : L.Rel Γ f g) :
    L.Rel Γ (Query.nested f) (Query.nested g) := by
  unfold Query.nested
  exact rel_paren (rel_append (rel_append rel_newline h) rel_newline)

lemma sourceRel_table {t : TableRef} (h : L.Stored t.table ∨ t.schema = none ∧ Γ.Names t.table) :
    L.SourceRel Γ (.table t) (.table t) where
  layout d := by
    simp only [Query.sourceFragment]
    exact rel_tableRef h
  rowSource := rfl

lemma sourceRel_dual : L.SourceRel Γ .dual .dual where
  layout d := by
    simp only [Query.sourceFragment]
    exact rel_text _
  rowSource := rfl

lemma sourceRel_expr {f g : Fragment} {label : String} {columns : List String} (h : L.Rel Γ f g) :
    L.SourceRel Γ (.expr f label columns) (.expr g label columns) where
  layout d := by
    simp only [Query.sourceFragment]
    mono
  rowSource := rfl

lemma sourceRel_subquery {named : List (String × List String)} {q q' : Query} (label : String)
    (h : L.QueryRel named q q') (sub : named ⊆ Γ.named) :
    L.SourceRel Γ (.subquery q label) (.subquery q' label) where
  layout d := by
    have hq := L.mono (Δ := Γ.inside .derived) (le_of_named_subset sub) (h.layout d)
    have hq := rel_derived (rel_nested hq)
    simp only [Query.sourceFragment]
    mono
  rowSource := by
    simp only [Source.rowSource?, h.columns]

instance (kind : JoinKind) : Common kind.keyword := by
  cases kind <;> constructor

lemma joinRel_mk {kind : JoinKind} {s s' : Source} {on on' : Option Condition}
    (h : L.SourceRel Γ s s') (hc : Option.Rel (L.Cond Γ) on on') :
    L.JoinRel Γ ⟨kind, s, on⟩ ⟨kind, s', on'⟩ where
  layout d := by
    have hs := h.layout d
    simp only [Query.joinFragment]
    cases hc with
    | none => mono
    | some hc => mono
  rowSource := h.rowSource

/-- A query with no clause but its source. -/
lemma selectRel_source {s s' : Source} (h : L.SourceRel Γ s s') :
    L.SelectRel Γ { source := some s } { source := some s' } where
  distinct := rfl
  source := .some h
  joins := .nil
  filters := .nil
  groupBy := .nil
  having := .nil
  orderBy := .nil
  rows := rfl
  compound := ⟨rfl, rfl⟩

/-- The alias of a source is part of its layout. -/
lemma ident_mem_source (d : Dialect) {s : Source} {r : RowSource} (h : r ∈ s.rowSource?) :
    Piece.token (.ident r.label) ∈ Query.sourceFragment d s := by
  cases s with
  | table t =>
    obtain ⟨label, hl, rfl⟩ := Option.map_eq_some_iff.1 h
    simp [Query.sourceFragment, TableRef.fragment, hl, Fragment.ident, Fragment.ofToken]
  | subquery q label =>
    cases h
    simp [Query.sourceFragment, Fragment.ident, Fragment.ofToken]
  | expr value label columns =>
    cases h
    simp [Query.sourceFragment, Fragment.ident, Fragment.ofToken]
  | dual => cases h

lemma joinSources_eq {js js' : List Join} (h : List.Forall₂ (L.JoinRel Γ) js js') :
    js.filterMap (fun j => j.source.rowSource?) = js'.filterMap fun j => j.source.rowSource? := by
  induction h with
  | nil => rfl
  | cons hj _ ih => simp only [List.filterMap_cons, hj.rowSource, ih]

/-- Related queries have the same row sources. -/
lemma SelectRel.rowSources {q q' : Query} (h : L.SelectRel Γ q q') :
    Query.rowSources q.source q.joins = Query.rowSources q'.source q'.joins := by
  have hs : (q.source >>= Source.rowSource?) = (q'.source >>= Source.rowSource?) := by
    have hs := h.source
    generalize q.source = o, q'.source = o' at hs
    cases hs with
    | none => rfl
    | some hs => exact hs.rowSource
  rw [Query.rowSources, Query.rowSources, hs, joinSources_eq h.joins]

lemma ident_mem_joins (d : Dialect) {js : List Join} {j : Join} {r : RowSource} (hj : j ∈ js)
    (hr : r ∈ j.source.rowSource?) : Piece.token (.ident r.label) ∈ Query.joinClauses d js := by
  induction js with
  | nil => cases hj
  | cons j' rest ih =>
    simp only [Query.joinClauses]
    obtain rfl | hj := List.mem_cons.1 hj
    · refine List.mem_append_left _ (List.mem_append_right _ ?_)
      obtain ⟨kind, source, on⟩ := j
      simp only [Query.joinFragment]
      exact List.mem_append_left _ (List.mem_append_right _ (ident_mem_source d hr))
    · exact List.mem_append_right _ (ih hj)

/-- The aliases of all row sources are part of the layout. -/
lemma ident_mem_sources (d : Dialect) {source : Option Source} {js : List Join} {label : String}
    (h : label ∈ (Query.rowSources source js).map RowSource.label) :
    Piece.token (.ident label) ∈ Query.fromClause d source ++ Query.joinClauses d js := by
  obtain ⟨r, hr, rfl⟩ := List.mem_map.1 h
  obtain hr | hr := List.mem_append.1 hr
  · obtain ⟨s, rfl, hs⟩ := Option.bind_eq_some_iff.1 (Option.mem_toList.1 hr)
    refine List.mem_append_left _ ?_
    simp only [Query.fromClause]
    exact List.mem_append_right _ (ident_mem_source d hs)
  · obtain ⟨j, hj, hr⟩ := List.mem_filterMap.1 hr
    exact List.mem_append_right _ (ident_mem_joins d hj hr)

/-! ## Clauses -/

lemma rel_selectItem {i i' : SelectItem} (h : L.ItemRel Γ i i') :
    L.Rel Γ i.fragment i'.fragment := by
  obtain @⟨f, g, label, hf⟩ := h
  cases label with
  | none => exact hf
  | some label => exact rel_append (rel_append hf (rel_text _)) (rel_ident _)

lemma rel_selectList {is is' : List SelectItem} (h : List.Forall₂ (L.ItemRel Γ) is is') :
    L.Rel Γ (Query.selectList is) (Query.selectList is') := by
  have hline : L.Rel Γ (Query.newline ++ Fragment.ofToken (.indent 1))
      (Query.newline ++ Fragment.ofToken (.indent 1)) :=
    rel_append rel_newline (rel_ofToken rfl)
  induction h with
  | nil => exact rel_nil
  | cons hi hs ih =>
    have hi := rel_append hline (rel_selectItem hi)
    cases hs with
    | nil => exact hi
    | cons => exact rel_append (rel_append hi (rel_text _)) ih

lemma rel_orderTerm {t t' : OrderTerm} (h : L.OrderRel Γ t t') :
    L.Rel Γ t.fragment t'.fragment := by
  obtain @⟨f, g, direction, nullsFirst, hf⟩ := h
  unfold OrderTerm.fragment
  dsimp only
  mono <;> split <;> mono

lemma rel_orderTerms {ts ts' : List OrderTerm} (h : List.Forall₂ (L.OrderRel Γ) ts ts') :
    List.Forall₂ (L.Rel Γ) (ts.map OrderTerm.fragment) (ts'.map OrderTerm.fragment) :=
  List.rel_map (fun _ _ ht => rel_orderTerm ht) h

lemma rel_listClause {keyword : String} [Common keyword] {fs gs : List Fragment}
    (h : List.Forall₂ (L.Rel Γ) fs gs) :
    L.Rel Γ (Query.listClause keyword fs) (Query.listClause keyword gs) := by
  unfold Query.listClause
  rw [isEmpty_eq_of_forall₂ h]
  split <;> mono

lemma rel_conditionClause {keyword : String} [Common keyword] {cs cs' : List Condition}
    (h : List.Forall₂ (L.Cond Γ) cs cs') :
    L.Rel Γ (Query.conditionClause keyword cs) (Query.conditionClause keyword cs') := by
  have hc := rel_conjunction h
  unfold Query.conditionClause
  generalize Condition.conjunction? cs = o, Condition.conjunction? cs' = o' at hc
  cases hc with
  | none => exact rel_nil
  | some hf => mono

lemma rel_rowClause (rows : RowWindow) :
    L.Rel Γ (Query.rowClause rows) (Query.rowClause rows) := by
  unfold Query.rowClause
  split <;> mono

lemma rel_fromClause {s s' : Option Source} (h : Option.Rel (L.SourceRel Γ) s s') (d : Dialect) :
    L.Rel Γ (Query.fromClause d s) (Query.fromClause d s') := by
  cases h with
  | none =>
    simp only [Query.fromClause]
    mono
  | some hs =>
    have hs := hs.layout d
    simp only [Query.fromClause]
    mono

lemma rel_joinClauses {js js' : List Join} (h : List.Forall₂ (L.JoinRel Γ) js js') (d : Dialect) :
    L.Rel Γ (Query.joinClauses d js) (Query.joinClauses d js') := by
  induction h with
  | nil =>
    simp only [Query.joinClauses]
    mono
  | cons hj _ ih =>
    have hj := hj.layout d
    simp only [Query.joinClauses]
    mono

lemma rel_cycleClause (c : Option CycleMark) :
    L.Rel Γ (Query.cycleClause c) (Query.cycleClause c) := by
  cases c with
  | none => exact rel_nil
  | some c =>
    have hcolumns : List.Forall₂ (L.Rel Γ) (c.columns.map Fragment.ident)
        (c.columns.map Fragment.ident) := by
      refine forall₂_self fun f hf => ?_
      obtain ⟨_, _, rfl⟩ := List.mem_map.1 hf
      exact rel_ident _
    unfold Query.cycleClause
    mono

lemma rel_cteHead {name : String} {columns : Option (List String)} :
    L.Rel Γ (Query.cteHead name columns) (Query.cteHead name columns) := by
  unfold Query.cteHead
  cases columns <;> dsimp only <;> mono

/-! ## Queries -/

lemma cteRel_mk {named : List (String × List String)} {name : String}
    {columns : Option (List String)} {q q' : Query} {recursive : Bool} {cycle : Option CycleMark}
    (hname : Numbered (if recursive then "graph" else "facet") name) (h : L.QueryRel named q q') :
    L.CteRel named ⟨name, columns, q, recursive, cycle⟩ ⟨name, columns, q', recursive, cycle⟩ where
  layout d := by
    have hq := h.layout d
    simp only [Query.cteFragment]
    exact rel_append (rel_append rel_cteHead (rel_nested hq)) (rel_cycleClause cycle)
  numbered := hname
  signature := by simp only [Cte.signature, h.columns]
  recursive := rfl

/-- The name of a subquery is part of its layout. -/
lemma ident_mem_cte (d : Dialect) (c : Cte) :
    Piece.token (.ident c.signature.1) ∈ Query.cteFragment d c := by
  obtain ⟨name, columns, q, recursive, cycle⟩ := c
  simp [Cte.signature, Query.cteFragment, Query.cteHead, Fragment.ident, Fragment.ofToken]

lemma CtesRel.withKeyword {named : List (String × List String)} {cs cs' : List Cte}
    (h : L.CtesRel named cs cs') (d : Dialect) :
    Query.withKeyword d cs = Query.withKeyword d cs' := by
  have hrecursive : cs.any (fun c => c.recursive) = cs'.any fun c => c.recursive := by
    induction h with
    | nil => rfl
    | cons hc _ ih => simp only [List.any_cons, hc.recursive, ih]
  simp only [Query.withKeyword, h.isEmpty, hrecursive]

/-- The name of each subquery is in sight of its body and of all that follows. -/
lemma CtesRel.layout {named : List (String × List String)} {cs cs' : List Cte} {f g : Fragment}
    (hn : L.Naming) (h : L.CtesRel named cs cs') (d : Dialect)
    (hfg : L.Rel { named := cs.map Cte.signature ++ named } f g) :
    L.Rel { named } (Query.cteScopes d cs f) (Query.cteScopes d cs' g) := by
  induction h with
  | nil =>
    simp only [Query.cteScopes]
    exact hfg
  | @cons named c c' cs cs' hc hcs ih =>
    have hbody := ih (L.mono (le_of_named_subset fun x hx => by
      simpa [or_left_comm] using hx) hfg)
    have hcte := (hc.mono (c.inSight_subset named)).layout d
    simp only [Query.cteScopes, ← hc.signature, ← hcs.isEmpty]
    refine hn ?_ (rel_append (rel_append (rel_append hcte ?_) rel_newline) hbody)
    · intro name hname
      obtain rfl := List.mem_singleton.1 hname
      simp only [List.append_assoc]
      exact List.mem_append_left _ (ident_mem_cte d c)
    · split <;> mono

lemma rel_withKeyword (d : Dialect) (cs : List Cte) :
    L.Rel Γ (Query.withKeyword d cs) (Query.withKeyword d cs) := by
  unfold Query.withKeyword
  split <;> [skip; split] <;> mono

/-- A query without subqueries in front of it is related if its clauses and its select list are. -/
lemma queryRel_plain {named : List (String × List String)} {q q' : Query} (hc : q.ctes = [])
    (hc' : q'.ctes = []) (hs : L.SelectRel (q.ctx named) q q')
    (hl : L.Lists (q.items.map SelectItem.column?))
    (hi : List.Forall₂ (L.ItemRel (q.ctx named)) q.items q'.items) : L.QueryRel named q q' := by
  have hsources := hs.rowSources
  have hcolumns := columns_eq hi
  obtain ⟨_, items, distinct, source, joins, filters, groupBy, having, orderBy, rows, _⟩ := q
  obtain ⟨_, items', _, source', joins', filters', groupBy', having', orderBy', _, _⟩ := q'
  obtain ⟨rfl, hsource, hjoins, hfilters, hgroup, hhaving, horder, rfl, rfl, rfl⟩ := hs
  dsimp only at *
  subst hc hc'
  refine ⟨fun d => ?_, ?_, rfl, isEmpty_eq_of_forall₂ horder, rfl⟩
  · simp only [Query.fragment, Query.cteScopes, ← hsources, ← hcolumns]
    refine rel_append (rel_withKeyword d []) (L.group rfl ?_ (by simpa [Bracket.selected?]) ?_)
    · intro label hlabel
      have hmem := ident_mem_sources d hlabel
      simp only [List.mem_append] at hmem ⊢
      tauto
    · refine rel_append (rel_append (rel_append (rel_append (rel_append (rel_append (rel_append
        (rel_append ?_ (rel_selectList hi)) (rel_fromClause hsource d)) (rel_joinClauses hjoins d))
        (rel_conditionClause hfilters)) (rel_listClause hgroup)) (rel_conditionClause hhaving))
        (rel_listClause (rel_orderTerms horder))) (rel_rowClause rows)
      split <;> mono
  · simp only [Query.columns]
    exact columnNames_eq hi

/-- The subqueries in front of a query go around its layout. -/
lemma fragment_outer (d : Dialect) (q : Query) :
    q.fragment d = Query.withKeyword d q.ctes ++
      Query.cteScopes d q.ctes (Query.fragment d { q with ctes := [] }) := by
  obtain ⟨_, _, _, _, _, _, _, _, _, _, compound⟩ := q
  cases compound <;> simp only [Query.fragment, Query.cteScopes] <;> rfl

lemma columns_outer (q : Query) : Query.columns { q with ctes := [] } = q.columns := by
  obtain ⟨_, _, _, _, _, _, _, _, _, _, compound⟩ := q
  cases compound <;> rfl

/-- A query is related if the subqueries in front of it are, and the rest with these in sight. -/
lemma queryRel_outer {named : List (String × List String)} {q q' : Query} (hn : L.Naming)
    (hc : L.CtesRel named q.ctes q'.ctes)
    (h : L.QueryRel (q.ctes.map Cte.signature ++ named) { q with ctes := [] }
      { q' with ctes := [] }) : L.QueryRel named q q' where
  layout d := by
    rw [fragment_outer d q, fragment_outer d q', ← hc.withKeyword d]
    exact rel_append (rel_withKeyword d q.ctes) (hc.layout hn d (h.layout d))
  columns := by
    rw [← columns_outer q, ← columns_outer q', h.columns]
  compound := h.compound
  orderBy := h.orderBy
  rows := h.rows

lemma rel_branch {named : List (String × List String)} {q q' : Query} {f g : Fragment}
    (h : L.QueryRel named q q') (hfg : L.Rel Γ f g) :
    L.Rel Γ (Query.branch q f) (Query.branch q' g) := by
  unfold Query.branch
  rw [h.compound, h.orderBy, h.rows]
  split <;> mono

instance (operator : SetOperator) : Common operator.keyword := by
  cases operator <;> constructor

/-- Two queries combined are related if both are. -/
lemma queryRel_compound {named : List (String × List String)} {operator : SetOperator} {all : Bool}
    {left left' right right' : Query} (hl : L.QueryRel named left left')
    (hr : L.QueryRel named right right') :
    L.QueryRel named { compound := some ⟨left, operator, all, right⟩ }
      { compound := some ⟨left', operator, all, right'⟩ } where
  layout d := by
    have hleft := rel_branch hl (hl.layout d)
    have hright := rel_branch hr (hr.layout d)
    simp only [Query.fragment, Query.cteScopes, Query.compoundFragment]
    refine rel_append (rel_withKeyword d []) (rel_append (rel_append (rel_append (rel_append hleft
      rel_newline) ?_) rel_newline) hright)
    split <;> mono
  columns := by simp only [Query.columns, Compound.columns, hl.columns]
  compound := rfl
  orderBy := rfl
  rows := rfl

end FragmentLogic

end PipelineSql
