import PipelineSql.Proofs.ClauseOrder

/-!
# Stages that keep the order

A stage that neither sorts nor groups keeps the order of the rows. It extends the current query, or
makes it a subquery and extends the query around it, which then sorts by the same keys. Either way
it changes the row in a way that depends on the stage alone.

Main result: every run of such a stage is one of these two.
-/

namespace PipelineSql

/-- The fields that a projection selects, in order: `_id` first unless it is listed or there is
none. -/
def selectedFields (scope : Scope) (fields : List (Path × ProjectField)) : List (Path × Expr) :=
  (if (fields.any fun (name, _) => name = Projection.idPath) ||
      Draft.isMissing scope Projection.idPath then []
    else [(Projection.idPath, .field { path := Projection.idPath })]) ++
  fields.filterMap fun (name, f) => (Draft.projected? name f).map fun e => (name, e)

/-- The text of a document without some fields. -/
def withoutFields (doc : Fragment) (names : List Path) : Fragment :=
  Fragment.call "JSON_TRANSFORM" (doc :: names.map fun n => "REMOVE " ++ Fragment.string n.json)

namespace Scope

/-- The column of a selected field. Where the field is only passed on, it has the field's text. -/
def Selects (env : Env) (σ : Scope) (x : Path × Expr) (c : Column) : Prop :=
  c.name = x.1 ∧ ∃ f, c.value = .output f ∧
    (x.2 = .field { path := x.1 } → f = ({ env with scope := σ }.fieldJson x.1).1)

/-- The row without some fields: its document, or the columns that are left. -/
inductive Removes (d : Dialect) (names : List Path) (σ : Scope) : Scope → Prop where
  | document : σ.isDocument = true →
    Removes d names σ { doc := some (.computed (withoutFields (σ.documentValue d) names)) }
  | columns : σ.isDocument = false → Removes d names σ
    { columns := (σ.entries.filter fun e => !names.any fun n => e.name.isWithin n).map fun e =>
        ⟨e.name, .output e.value, e.json⟩ }

/-- How a stage that keeps rows and their order changes the row. -/
inductive Step (env : Env) (σ : Scope) : Stage → Scope → Prop where
  | filter {test} : Step env σ (.filter test) σ
  | redact {decision} : Step env σ (.redact decision) σ
  | limit {n} : Step env σ (.limit n) σ
  | skip {n} : Step env σ (.skip n) σ
  | lookup {spec source key} : Step env σ (.lookup spec)
    { σ with lookups := σ.lookups ++ [⟨spec.asField, source, key⟩] }
  | graphLookup {spec source key} : Step env σ (.graphLookup spec)
    { σ with lookups := σ.lookups ++ [⟨spec.asField, source, key⟩] }
  | unwind {spec source} : Step env σ (.unwind spec)
    { σ with unwinds := σ.unwinds ++ [⟨spec.path, source, spec.index⟩] }
  | addFields {fields} {added : List Computed} : added.map Computed.name = fields.map Prod.fst →
    Step env σ (.addFields fields) (added.foldl compute σ)
  | windowFields {spec} {added : List Computed} :
    added.map Computed.name = spec.outputs.map Prod.fst →
    Step env σ (.windowFields spec) (added.foldl compute σ)
  | keep {fields columns} : Projection.mode fields = .inclusion →
    List.Forall₂ (σ.Selects env) (selectedFields σ fields) columns →
    Step env σ (.project fields) { columns }
  | drop {fields σ'} : Projection.mode fields = .exclusion →
    Removes env.dialect (fields.map Prod.fst) σ σ' → Step env σ (.project fields) σ'
  | unset {names σ'} : Removes env.dialect names σ σ' → Step env σ (.unset names) σ'
  | replaceRoot {root doc} : Step env σ (.replaceRoot root) { doc := some (.computed doc) }

end Scope

/-- Does a stage keep the order of the rows? -/
def Stage.keepsOrder : Stage → Bool
  | .filter _ | .redact _ | .limit _ | .skip _ | .lookup _ | .graphLookup _ | .unwind _
  | .addFields _ | .windowFields _ | .project _ | .unset _ | .replaceRoot _ => true
  | _ => false

/-- Does a stage replace the select list? -/
def Stage.reshapes : Stage → Bool
  | .project _ | .unset _ | .replaceRoot _ => true
  | _ => false

/-- Does a stage make new rows of those that it has? -/
def Stage.makesRows : Stage → Bool
  | .group _ | .count _ | .bucket _ | .bucketAuto _ | .facet _ | .unionWith .. => true
  | _ => false

namespace Draft

open Render

variable {b : Draft} {env : Env}

/-- The draft around the current query, sorted by the same keys. -/
def rewrapped (b : Draft) (env : Env) (label : String) : Draft :=
  { b.around env label with
    query := { (b.around env label).query with
      orderBy := (orderTerms env (b.scope.wrapped label env.dataColumn) b.ordering false).1 }
    ordering := b.ordering }

/-- A stage extends the query of a draft: the order stays, and the row changes as it does. -/
structure Grows (env : Env) (s : Stage) (b b' : Draft) : Prop where
  row : b.scope.Step env s b'.scope
  orderBy : b'.query.orderBy = b.query.orderBy
  ordering : b'.ordering = b.ordering
  sortedByAlias : b'.sortedByAlias = b.sortedByAlias
  notByAlias : s.reshapes = true → b.sortedByAlias = false

/-- A stage extends the query of a draft or the one around it. -/
def GrowsOrWraps (env : Env) (s : Stage) (b b' : Draft) : Prop :=
  Grows env s b b' ∨ ∃ label, Grows env s (b.rewrapped env label) b'

lemma yields_rewrapped (b : Draft) :
    b.wrap.Yields env fun b₁ => ∃ label, b₁ = b.rewrapped env label := by
  unfold wrap
  refine yields_bind (yields_wrapAs b) ?_
  rintro _ ⟨label, rfl⟩
  refine yields_ite (fun h => yields_pure ⟨label, ?_⟩) fun _ =>
    yields_read (yields_pure ⟨label, rfl⟩)
  rw [rewrapped, List.isEmpty_iff.1 h]
  rfl

/-- What extends every draft extends the current one or the one around it. Where no wrapping is
needed it is the current one. -/
lemma yields_growsOrWraps {s : Stage} {needed : Bool} {k : Draft → Render Draft}
    (hk : ∀ b₁ : Draft, b₁ = b ∧ needed = false ∨ b₁.sortedByAlias = false →
      (k b₁).Yields env (Grows env s b₁)) :
    (b.wrapIf needed >>= k).Yields env (GrowsOrWraps env s b) := by
  cases needed with
  | false => exact (hk b (.inl ⟨rfl, rfl⟩)).imp fun b' h => .inl h
  | true =>
    refine yields_bind (yields_rewrapped b) ?_
    rintro _ ⟨label, rfl⟩
    exact (hk _ (.inr rfl)).imp fun b' h => .inr ⟨label, h⟩

/-- A stage that leaves the order of a draft alone. -/
lemma grows_of_row {s : Stage} {b' : Draft} (hs : s.reshapes = false)
    (hrow : b.scope.Step env s b'.scope) (horder : b'.query.orderBy = b.query.orderBy)
    (hkeys : b'.ordering = b.ordering) (hflag : b'.sortedByAlias = b.sortedByAlias) :
    Grows env s b b' :=
  ⟨hrow, horder, hkeys, hflag, fun h => by rw [hs] at h; cases h⟩

lemma grows_filterStage (b : Draft) (test : Expr) :
    (b.filterStage test).Yields env (GrowsOrWraps env (.filter test) b) := by
  unfold filterStage
  refine yields_ite (fun _ => yields_then fun c => yields_pure (.inl ?_)) fun _ => ?_
  · exact grows_of_row rfl .filter rfl rfl rfl
  · refine yields_growsOrWraps fun b₁ _ => yields_then fun c => yields_pure ?_
    exact grows_of_row rfl .filter rfl rfl rfl

lemma grows_redactStage (b : Draft) (decision : Expr) :
    (b.redactStage decision).Yields env (GrowsOrWraps env (.redact decision) b) := by
  unfold redactStage
  refine yields_then fun _ => yields_growsOrWraps fun b₁ _ => yields_then fun value => ?_
  exact yields_pure (grows_of_row rfl .redact rfl rfl rfl)

lemma grows_lookupStage (b : Draft) (l : Lookup) :
    (b.lookupStage l).Yields env (GrowsOrWraps env (.lookup l) b) := by
  unfold lookupStage
  refine yields_growsOrWraps fun b₁ _ => yields_then fun label => yields_then fun inner => ?_
  exact yields_then fun env' => yields_pure (grows_of_row rfl .lookup rfl rfl rfl)

lemma grows_graphStage (b : Draft) (g : GraphLookup) :
    (b.graphStage g).Yields env (GrowsOrWraps env (.graphLookup g) b) := by
  unfold graphStage
  refine yields_then fun _ => yields_growsOrWraps fun b₁ _ => yields_then fun start => ?_
  refine yields_then fun cte => yields_then fun walk => yields_then fun _ => ?_
  refine yields_then fun ranked => yields_then fun label => yields_then fun env' => yields_pure ?_
  exact grows_of_row rfl .graphLookup rfl rfl rfl

lemma grows_unwindStage (b : Draft) (u : Unwind) :
    (b.unwindStage u).Yields env (GrowsOrWraps env (.unwind u) b) := by
  unfold unwindStage
  refine yields_growsOrWraps fun b₁ _ => yields_then fun env' => ?_
  split
  · exact yields_unsupported _
  · exact yields_then fun label => yields_pure (grows_of_row rfl .unwind rfl rfl rfl)

/-- The values that are computed go by the names that are listed. -/
lemma names_of_forall₂ {α β : Type} {name : β → Path} {xs : List (Path × α)} {cs : List β}
    (h : List.Forall₂ (fun x c => name c = x.1) xs cs) : cs.map name = xs.map Prod.fst := by
  induction h with
  | nil => rfl
  | cons hx _ ih => rw [List.map_cons, List.map_cons, hx, ih]

lemma grows_addFieldsStage (b : Draft) (fields : List (Path × Expr)) :
    (b.addFieldsStage fields).Yields env (GrowsOrWraps env (.addFields fields) b) := by
  unfold addFieldsStage
  refine yields_growsOrWraps fun b₁ _ => ?_
  refine yields_bind (yields_mapM (R := fun x c => c.name = x.1) ?_) fun added hadded => ?_
  · rintro ⟨name, e⟩ _
    exact yields_then fun value => yields_pure rfl
  · exact yields_pure (grows_of_row rfl (.addFields (names_of_forall₂ hadded)) rfl rfl rfl)

lemma grows_windowStage (b : Draft) (spec : WindowFields) :
    (b.windowStage spec).Yields env (GrowsOrWraps env (.windowFields spec) b) := by
  unfold windowStage
  refine yields_growsOrWraps fun b₁ _ => yields_then fun partition => ?_
  refine yields_bind (yields_mapM (R := fun x c => c.name = x.1) ?_) fun added hadded => ?_
  · rintro ⟨name, out⟩ _
    exact yields_then fun value => yields_pure rfl
  · exact yields_pure (grows_of_row rfl (.windowFields (names_of_forall₂ hadded)) rfl rfl rfl)

/-- The draft with another row, where the select list can be replaced. -/
lemma grows_withScope {s : Stage} {σ : Scope} {b₁ : Draft}
    (hready : b₁ = b ∧ (!b.acceptsReshape) = false ∨ b₁.sortedByAlias = false)
    (hrow : b₁.scope.Step env s σ) : Grows env s b₁ (b₁.withScope σ) := by
  refine ⟨hrow, rfl, rfl, rfl, fun _ => ?_⟩
  rcases hready with ⟨rfl, haccepts⟩ | hflag
  · simp only [acceptsReshape, Bool.not_eq_false', Bool.and_eq_true, Bool.not_eq_true'] at haccepts
    exact haccepts.2
  · exact hflag

lemma yields_outputColumn (b : Draft) (name : Path) (e : Expr) :
    (b.outputColumn name e).Yields env (b.scope.Selects env (name, e)) := by
  have htext : e.json.Yields { env with scope := b.scope } fun r =>
      e = .field { path := name } → r.1 = ({ env with scope := b.scope }.fieldJson name).1 := by
    intro st r st' hrun he
    subst he
    cases hrun
    rfl
  unfold outputColumn
  exact yields_bind (yields_within htext) fun r hr => yields_pure ⟨rfl, r.1, rfl, hr⟩

lemma yields_selected (b : Draft) (fields : List (Path × ProjectField))
    (hmode : Projection.mode fields = .inclusion) :
    (b.includeFields fields).Yields env fun b' =>
      ∃ σ, b.scope.Step env (.project fields) σ ∧ b' = b.withScope σ := by
  unfold includeFields
  refine yields_bind (yields_mapM fun x _ => yields_outputColumn b x.1 x.2) fun columns h => ?_
  exact yields_pure ⟨_, .keep hmode h, rfl⟩

lemma yields_removes (b : Draft) (names : List Path) (stage : String) :
    (b.excludeFields names stage).Yields env fun b' =>
      ∃ σ, b.scope.Removes env.dialect names σ ∧ b' = b.withScope σ := by
  unfold excludeFields
  refine yields_ite (fun hdoc => yields_read ?_) fun hdoc => yields_pure ?_
  · refine yields_ite (fun _ => yields_then fun _ => ?_) fun _ => ?_
    · exact yields_pure ⟨_, .document hdoc, rfl⟩
    · exact yields_pure ⟨_, .document hdoc, rfl⟩
  · exact ⟨_, .columns (Bool.eq_false_iff.2 hdoc), rfl⟩

lemma grows_projectStage (b : Draft) (fields : List (Path × ProjectField)) :
    (b.projectStage fields).Yields env (GrowsOrWraps env (.project fields) b) := by
  unfold projectStage
  refine yields_growsOrWraps fun b₁ hready => ?_
  split
  · next hmode =>
    refine (yields_selected b₁ fields hmode).imp ?_
    rintro _ ⟨σ, hrow, rfl⟩
    exact grows_withScope hready hrow
  · next hmode =>
    refine (yields_removes b₁ _ _).imp ?_
    rintro _ ⟨σ, hrow, rfl⟩
    exact grows_withScope hready (.drop hmode hrow)

lemma grows_unsetStage (b : Draft) (names : List Path) :
    (b.unsetStage names).Yields env (GrowsOrWraps env (.unset names) b) := by
  unfold unsetStage
  refine yields_growsOrWraps fun b₁ hready => (yields_removes b₁ _ _).imp ?_
  rintro _ ⟨σ, hrow, rfl⟩
  exact grows_withScope hready (.unset hrow)

lemma grows_replaceRootStage (b : Draft) (root : Expr) :
    (b.replaceRootStage root).Yields env (GrowsOrWraps env (.replaceRoot root) b) := by
  unfold replaceRootStage
  refine yields_growsOrWraps fun b₁ hready => yields_then fun doc => yields_pure ?_
  exact grows_withScope hready .replaceRoot

/-- A stage that keeps the order extends the current query, or the one around it that sorts by the
same keys. -/
lemma grows_stage {s : Stage} (hs : s.keepsOrder = true) (b : Draft) :
    (stage s b).Yields env (GrowsOrWraps env s b) := by
  cases s with
  | filter test => rw [stage]; exact grows_filterStage b test
  | redact decision => rw [stage]; exact grows_redactStage b decision
  | limit n => rw [stage]; exact yields_pure (.inl (grows_of_row rfl .limit rfl rfl rfl))
  | skip n => rw [stage]; exact yields_pure (.inl (grows_of_row rfl .skip rfl rfl rfl))
  | lookup spec => rw [stage]; exact grows_lookupStage b spec
  | graphLookup spec => rw [stage]; exact grows_graphStage b spec
  | unwind spec => rw [stage]; exact grows_unwindStage b spec
  | addFields fields => rw [stage]; exact grows_addFieldsStage b fields
  | windowFields spec => rw [stage]; exact grows_windowStage b spec
  | project fields => rw [stage]; exact grows_projectStage b fields
  | unset names => rw [stage]; exact grows_unsetStage b names
  | replaceRoot root => rw [stage]; exact grows_replaceRootStage b root
  | _ => cases hs

/-- Are the terms those of the keys over the row, and does the flag say whether one is an alias? -/
structure Ordered (own : Bool) (b : Draft) : Prop where
  orderBy : ∃ env : Env, b.query.orderBy = (orderTerms env b.scope b.ordering own).1
  sortedByAlias : b.sortedByAlias = sortsByAlias b.query.orderBy

/-- A sort writes the terms of its keys over the row that it leaves. -/
lemma yields_ordered (b : Draft) (keys : List SortKey) (hint : Option Nat) :
    (b.sortStage keys hint).Yields env fun b' => b'.Ordered true ∧ b'.ordering = keys := by
  unfold sortStage
  refine yields_then fun b₁ => yields_read (yields_pure ⟨⟨⟨env, rfl⟩, ?_⟩, rfl⟩)
  exact orderTerms_snd env b₁.scope keys true

lemma ordered_rewrapped (b : Draft) (env : Env) (label : String) :
    (b.rewrapped env label).Ordered false :=
  ⟨⟨env, rfl⟩, (sortsByAlias_wrapped env b.scope b.ordering label _ false).symm⟩

/-! ## Documents and columns -/

end Draft

/-- Does a row with a document have no columns beside it? -/
def Scope.OneShape (σ : Scope) : Prop :=
  σ.isDocument = true → σ.columns = []

/-- A row of columns or of a document, with nothing pending beside them. -/
inductive Scope.Fresh : Scope → Prop where
  | columns {columns} : Fresh { columns }
  | document {doc} : Fresh { doc := some doc }

namespace Scope

lemma Fresh.oneShape {σ : Scope} (h : σ.Fresh) : σ.OneShape := by
  cases h with
  | columns => rintro ⟨⟩
  | document => exact fun _ => rfl

lemma fresh_wrapped (σ : Scope) (label data : String) : (σ.wrapped label data).Fresh := by
  unfold wrapped
  split
  · exact .document
  · exact .columns

lemma oneShape_wrapped (σ : Scope) (label data : String) : (σ.wrapped label data).OneShape :=
  (σ.fresh_wrapped label data).oneShape

/-- Nothing is pending when the select list is replaced. -/
lemma Step.fresh {env : Env} {s : Stage} {σ σ' : Scope} (h : σ.Step env s σ')
    (hs : s.reshapes = true) : σ'.Fresh := by
  cases h with
  | keep => exact .columns
  | replaceRoot => exact .document
  | drop _ hrem | unset hrem =>
    cases hrem with
    | document => exact .document
    | columns => exact .columns
  | _ => cases hs

/-- Computed fields stand beside what a row has. -/
lemma exists_foldl_compute_eq (cs : List Computed) (σ : Scope) :
    ∃ computed, cs.foldl compute σ = { σ with computed } := by
  induction cs generalizing σ with
  | nil => exact ⟨σ.computed, rfl⟩
  | cons c cs ih => exact ih (σ.compute c)

lemma foldl_compute_eq (cs : List Computed) (σ : Scope) :
    (cs.foldl compute σ).doc = σ.doc ∧ (cs.foldl compute σ).columns = σ.columns := by
  obtain ⟨_, h⟩ := exists_foldl_compute_eq cs σ
  rw [h]
  exact ⟨rfl, rfl⟩

lemma oneShape_foldl_compute {σ : Scope} (h : σ.OneShape) (cs : List Computed) :
    (cs.foldl compute σ).OneShape := by
  obtain ⟨hdoc, hcolumns⟩ := foldl_compute_eq cs σ
  rw [OneShape, isDocument, hdoc, hcolumns]
  exact h

lemma Step.oneShape {env : Env} {s : Stage} {σ σ' : Scope} (h : σ.Step env s σ')
    (hσ : σ.OneShape) : σ'.OneShape := by
  cases hs : s.reshapes with
  | true => exact (h.fresh hs).oneShape
  | false =>
    cases h with
    | filter | redact | limit | skip | lookup | graphLookup | unwind => exact hσ
    | addFields => exact oneShape_foldl_compute hσ _
    | windowFields => exact oneShape_foldl_compute hσ _
    | _ => cases hs

end Scope

namespace Draft

open Render

variable {b : Draft} {env : Env}

lemma oneShape_wrapIf (hb : b.scope.OneShape) (needed : Bool) :
    (b.wrapIf needed).Yields env fun b₁ => b₁.scope.OneShape := by
  cases needed with
  | false => exact yields_pure hb
  | true =>
    refine (yields_rewrapped b).imp ?_
    rintro _ ⟨label, rfl⟩
    exact b.scope.oneShape_wrapped label env.dataColumn

/-- A stage that makes new rows leaves nothing pending. -/
lemma fresh_stage {s : Stage} (hs : s.makesRows = true) (b : Draft) :
    (stage s b).Yields env fun b' => b'.scope.Fresh := by
  cases s with
  | group spec =>
    rw [stage]
    refine yields_then fun b₁ => yields_then fun key => yields_then fun columns => ?_
    exact yields_pure .columns
  | count field =>
    rw [stage]
    exact yields_then fun b₁ => yields_pure .columns
  | bucket spec =>
    rw [stage]
    refine yields_then fun b₁ => yields_warn_if ?_
    refine yields_then fun key => yields_then fun columns => ?_
    exact yields_pure .columns
  | bucketAuto spec =>
    rw [stage]
    refine yields_then fun _ => yields_then fun _ => yields_then fun b₁ => ?_
    refine yields_then fun subject => yields_then fun outer => yields_then fun columns => ?_
    exact yields_pure .columns
  | facet facets =>
    rw [stage]
    refine yields_then fun name => yields_then fun query => yields_then fun _ => ?_
    exact yields_then fun entries => yields_pure .document
  | unionWith source nested =>
    refine (yields_unionStage b source nested).imp ?_
    rintro _ ⟨_, _, _, _, rfl⟩
    exact .document
  | _ => cases hs

/-- A stage leads from one shape of rows to one. -/
lemma oneShape_stage (hb : b.scope.OneShape) (s : Stage) :
    (stage s b).Yields env fun b' => b'.scope.OneShape := by
  cases hs : s.keepsOrder with
  | true =>
    refine (grows_stage hs b).imp ?_
    rintro b' (hgrows | ⟨label, hgrows⟩)
    · exact hgrows.row.oneShape hb
    · exact hgrows.row.oneShape (b.scope.oneShape_wrapped label env.dataColumn)
  | false =>
    cases s with
    | sort keys hint =>
      rw [stage]
      refine yields_bind (oneShape_wrapIf hb _) fun b₁ h₁ => yields_then fun env' => ?_
      exact yields_pure h₁
    | sample n =>
      rw [stage]
      exact yields_bind (oneShape_wrapIf hb _) fun b₁ h₁ => yields_pure h₁
    | lookupPipeline => rw [stage]; exact yields_unsupported _
    | merge spec => rw [stage]; exact yields_fault _
    | out spec => rw [stage]; exact yields_fault _
    | group | count | bucket | bucketAuto | facet | unionWith =>
      exact (fresh_stage rfl b).imp fun b' h => h.oneShape
    | _ => cases hs

lemma Reachable.oneShape (h : b.Reachable) : b.scope.OneShape := by
  refine h.invariant (P := fun b => b.scope.OneShape) (fun _ _ _ _ => ?_) (fun _ input _ _ => ?_)
    fun s b env _ hb => ?_
  · exact yields_then fun _ => yields_pure fun _ => rfl
  · exact yields_then fun _ => yields_then fun _ => yields_pure (input.oneShape_wrapped _ _)
  · exact oneShape_stage hb s

end Draft

end PipelineSql
