import PipelineSql.Proofs.LookupCounts
import PipelineSql.Proofs.Windowless

/-!
# Windows within windows

A stage of window functions wraps the query first if its partition or an argument reads a field that
the query computes. So no window function of the query comes into the arguments or the partition of
another. The keys of the order are not looked at, and a key that leads to the value of a window
function brings it into the clause of another. Nor is the field looked at by which a lookup is
counted, and which may have been replaced since.

The invariant of a draft is `Draft.Settled`, which every stage keeps.
-/

namespace PipelineSql

open Fragment

/-! ## Window functions -/

namespace Render

variable {env : Env} {partition : Fragment} {out : WindowOutput} {ordered : Bool}

lemma windowless_frame (frame : Frame) : frame.fragment.Windowless :=
  (FragmentLogic.rel_frame (L := .windowless) (Γ := {}) frame).2

lemma flat_append_overClause {head : Fragment} (h : head.Windowless) :
    (head ++ overClause out partition ordered).Flat ↔ partition.Windowless := by
  unfold overClause
  rw [flat_append_over h, windowless_append, and_iff_left]
  split
  · exact windowless_append.2 ⟨windowless_text " ", windowless_frame _⟩
  · exact windowless_nil

lemma not_windowless_overClause : ¬ (overClause out partition ordered).Windowless :=
  fun h => not_windowless_over (windowless_append.1 h).1

/-- The text is flat if there is no window function in it or none in the partition. -/
def FlatOver (partition f : Fragment) : Prop :=
  f.Flat ↔ f.Windowless ∨ partition.Windowless

lemma flatOver_of_windowless {f : Fragment} (h : f.Windowless) : FlatOver partition f :=
  iff_of_true h.flat (.inl h)

lemma flatOver_overClause {head : Fragment} (h : head.Windowless) :
    FlatOver partition (head ++ overClause out partition ordered) := by
  rw [FlatOver, flat_append_overClause h, windowless_append, or_iff_right]
  exact fun hvalue => not_windowless_overClause hvalue.2

lemma flatOver_call {name : String} [Common name] {args : List Fragment}
    (h : ∀ f ∈ args, f.Windowless) :
    FlatOver partition (call name args ++ overClause out partition ordered) :=
  flatOver_overClause (windowless_call.2 h)

lemma flatOver_mixedExtreme {number text : Fragment} {greatest : Bool}
    (hnumber : number.Windowless) (htext : text.Windowless) :
    FlatOver partition (mixedExtreme number text greatest (overClause out partition ordered)) := by
  have hcall {name : String} [Common name] {f : Fragment} (hf : f.Windowless) :
      (call name [f] ++ overClause out partition ordered).Flat ↔ partition.Windowless :=
    flat_append_overClause (windowless_call.2 (List.forall_mem_singleton.2 hf))
  have htexts : (cases [((Condition.isNull number).fragment, text)] none).Windowless := by
    have hbranch := FragmentLogic.branch_cond (L := .windowless) (Γ := {})
      (.isNull ⟨rfl, hnumber⟩) ⟨rfl, htext⟩
    exact (FragmentLogic.rel_cases_none (.cons hbranch .nil)).2
  unfold mixedExtreme
  split
  · simp [FlatOver, hcall hnumber, hcall htexts, not_windowless_overClause]
  · simp [FlatOver, hcall hnumber, hcall htext, not_windowless_overClause]

/-- An extreme over a partition. -/
lemma yields_flatOver_extreme {name : String} {greatest : Bool} {arg : Reading}
    (harg : ∀ type, (arg.value type).Yields env Windowless) :
    (extreme name greatest arg (overClause out partition ordered)).Yields env
      (FlatOver partition) := by
  refine yields_read ?_
  split
  · refine yields_bind (harg _) fun f hf => yields_pure ?_
    split
    · exact flatOver_call (List.forall_mem_singleton.2 hf)
    · exact flatOver_call (List.forall_mem_singleton.2 hf)
  · refine yields_then fun _ => yields_bind (harg _) fun n hn => ?_
    exact yields_bind (harg _) fun s hs => yields_pure (flatOver_mixedExtreme hn hs)

lemma yields_windowless_literal (l : Literal) : (literal l).Yields env Windowless :=
  yields_windowless (V := fun _ => False) (fun _ h => h.elim) fun Γ =>
    ((RenderLogic.windowless env.dataColumn _).literal (Γ := Γ)).imp fun _ _ h => h.2

lemma yields_flatOver_shifted {arg : Reading} {shift : Shift}
    (harg : ∀ type, (arg.value type).Yields env Windowless) :
    (shifted arg shift (overClause out partition ordered)).Yields env (FlatOver partition) := by
  have hcall {args : List Fragment} (h : ∀ f ∈ args, f.Windowless) :
      FlatOver partition (call (if 0 < shift.offset then "LEAD" else "LAG") args ++
        overClause out partition ordered) := by
    split
    · exact flatOver_call h
    · exact flatOver_call h
  unfold shifted
  refine yields_bind (harg none) fun f hf => ?_
  refine yields_ite (fun _ => yields_pure (flatOver_of_windowless hf)) fun _ => ?_
  refine yields_ite (fun _ => yields_pure (hcall ?_)) fun _ => ?_
  · exact List.forall_mem_cons.2 ⟨hf, List.forall_mem_singleton.2 rfl⟩
  · refine yields_bind (yields_windowless_literal _) fun l hl => yields_pure (hcall ?_)
    exact List.forall_mem_cons.2 ⟨hf, List.forall_mem_cons.2 ⟨rfl, List.forall_mem_singleton.2 hl⟩⟩

/-- Where the argument has no windows, only the partition may bring one into another. -/
lemma yields_flatOver_windowFunction {arg : Option Reading}
    (harg : ∀ r, arg = some r → ∀ type, (r.value type).Yields env Windowless) :
    (windowFunction out arg partition ordered).Yields env (FlatOver partition) := by
  have hcall {name : String} {function : String} [Common function] (type : Option JsonType) :
      (liftM (argumentOf name arg) >>= fun r => r.value type >>= fun f =>
        pure (call function [f] ++ overClause out partition ordered) : Render Fragment).Yields env
        (FlatOver partition) := by
    refine yields_argumentOf fun r hr => yields_bind (harg r hr type) fun f hf => yields_pure ?_
    exact flatOver_call (List.forall_mem_singleton.2 hf)
  unfold windowFunction
  dsimp only
  refine yields_ite (fun _ => ?_) fun _ => ?_
  · exact yields_bind (P := fun _ => False) (yields_fault _) fun _ hfalse => hfalse.elim
  split
  · exact yields_pure (flatOver_overClause (windowless_text _))
  · exact yields_pure (flatOver_overClause (windowless_text _))
  · exact yields_pure (flatOver_overClause (windowless_text _))
  · exact yields_pure (flatOver_overClause (windowless_text _))
  · exact hcall _
  · exact hcall _
  · exact hcall _
  · exact hcall _
  · exact yields_argumentOf fun r hr => yields_flatOver_extreme (harg r hr)
  · exact yields_argumentOf fun r hr => yields_flatOver_extreme (harg r hr)
  · exact hcall _
  · exact hcall _
  · split
    · exact yields_fault _
    · exact yields_argumentOf fun r hr => yields_flatOver_shifted (harg r hr)
  · exact yields_unsupported _

end Render

/-! ## Rows -/

/-- The texts of a row besides those of computed fields. -/
def Scope.baseTexts (σ : Scope) : List Fragment :=
  σ.doc.toList.flatMap DocSource.texts ++ σ.columns.flatMap Column.texts

namespace Scope

variable {σ : Scope}

lemma windowless_columns {columns : List Column} (h : ∀ c ∈ columns, ∀ f ∈ c.texts, f.Windowless) :
    ∀ f ∈ Scope.texts { columns }, f.Windowless := by
  intro f hf
  simp only [texts, List.mem_append, List.mem_flatMap, List.map_nil, List.not_mem_nil, or_false,
    Option.toList_none, false_and, exists_false, false_or] at hf
  obtain ⟨c, hc, hf⟩ := hf
  exact h c hc f hf

lemma windowless_computed {f : Fragment} (h : f.Windowless) :
    ∀ g ∈ Scope.texts { doc := some (.computed f) }, g.Windowless :=
  List.forall_mem_singleton.2 h

lemma mem_computed_foldl {added : List Computed} {c : Computed}
    (h : c ∈ (added.foldl compute σ).computed) : c ∈ σ.computed ∨ c ∈ added := by
  induction added generalizing σ with
  | nil => exact .inl h
  | cons a added ih =>
    rcases ih h with h | h
    · rcases List.mem_append.1 h with h | h
      · exact .inl (List.mem_filter.1 h).1
      · exact .inr (List.mem_cons.2 (.inl (List.mem_singleton.1 h)))
    · exact .inr (List.mem_cons_of_mem _ h)

end Scope

/-! ## Drafts -/

namespace Draft

open Render

variable {b : Draft} {env : Env}

/-- Windows are only in the texts of computed fields, and only if the row is said to carry them. -/
structure Settled (b : Draft) : Prop where
  extras : b.scope.extras = []
  base : ∀ f ∈ b.scope.baseTexts, f.Windowless
  computed : b.windowed = false → ∀ c ∈ b.scope.computed, c.value.Windowless

lemma settled_of_row (hextras : b.scope.extras = []) (hrow : ∀ f ∈ b.scope.texts, f.Windowless) :
    b.Settled := by
  obtain ⟨hbase, hcomputed⟩ := List.forall_mem_append.1 hrow
  exact ⟨hextras, hbase, fun _ => List.forall_mem_map.1 hcomputed⟩

lemma Settled.row (hb : b.Settled) (hw : b.windowed = false) : ∀ f ∈ b.scope.texts, f.Windowless :=
  List.forall_mem_append.2 ⟨hb.base, List.forall_mem_map.2 (hb.computed hw)⟩

lemma extras_wrapped (σ : Scope) (label data : String) : (σ.wrapped label data).extras = [] := by
  unfold Scope.wrapped
  split <;> rfl

lemma settled_of_wrapped {σ : Scope} {label data : String} (h : b.scope = σ.wrapped label data) :
    b.Settled := by
  refine settled_of_row ?_ ?_
  · rw [h, extras_wrapped]
  · rw [h, Scope.texts_wrapped]
    exact List.forall_mem_nil _

lemma settled_around (b : Draft) (env : Env) (label : String) : (b.around env label).Settled :=
  settled_of_wrapped rfl

lemma settled_rewrapped (b : Draft) (env : Env) (label : String) :
    (b.rewrapped env label).Settled :=
  settled_of_wrapped rfl

/-- A wrapped draft carries no windows. -/
lemma yields_settled_wrapIf (hb : b.Settled) (needed : Bool) :
    (b.wrapIf needed).Yields env fun b₀ =>
      b₀.Settled ∧ ((needed = false → b.windowed = false) → b₀.windowed = false) := by
  cases needed with
  | false => exact yields_pure ⟨hb, fun h => h rfl⟩
  | true =>
    refine (yields_rewrapped b).imp ?_
    rintro _ ⟨label, rfl⟩
    exact ⟨settled_rewrapped b env label, fun _ => rfl⟩

lemma yields_settled_rowsReady (hb : b.Settled) :
    b.rowsReady.Yields env fun b₀ => b₀.Settled ∧ b₀.windowed = false := by
  refine (yields_settled_wrapIf hb _).imp fun b₀ h₀ => ⟨h₀.1, h₀.2 fun h => ?_⟩
  simp only [Bool.not_eq_false', acceptsRows, Bool.and_eq_true, Bool.not_eq_true'] at h
  exact h.1.2

lemma yields_settled_reshapeReady (hb : b.Settled) :
    b.reshapeReady.Yields env fun b₀ => b₀.Settled ∧ b₀.windowed = false := by
  refine (yields_settled_wrapIf hb _).imp fun b₀ h₀ => ⟨h₀.1, h₀.2 fun h => ?_⟩
  simp only [Bool.not_eq_false', acceptsReshape, Bool.and_eq_true, Bool.not_eq_true'] at h
  exact h.1.2

lemma yields_settled_groupingReady (hb : b.Settled) :
    b.groupingReady.Yields env fun b₀ => b₀.Settled ∧ b₀.windowed = false := by
  refine (yields_groupingReady_cases b).imp ?_
  rintro _ (⟨ht, rfl⟩ | ⟨-, label, rfl⟩)
  · exact ⟨hb, ht.notWindowed⟩
  · exact ⟨settled_around b env label, rfl⟩

/-- What is rendered over a row that carries no windows has none. -/
lemma Settled.yields {α : Type} {r : Render α} {P : α → Prop} (hb : b.Settled)
    (hw : b.windowed = false)
    (hrun : ∀ Γ, (RenderLogic.windowless env.dataColumn).Run (some Γ) (fun a _ => P a) r r) :
    (b.render r).Yields env P :=
  yields_within (Render.yields_windowless (fun x _ => x.windowless_texts (hb.row hw)) hrun)

lemma Settled.yields_json (hb : b.Settled) (hw : b.windowed = false) (e : Expr) :
    (b.render e.json).Yields env fun x => x.1.Windowless :=
  hb.yields hw fun _ => (RenderLogic.run_json (RenderLogic.known_windowless fun _ _ => trivial)).imp
    fun _ _ h => h.1.2

/-! ## Stages -/

/-- Computed fields are added to a row, which is said to carry windows if it does. -/
lemma Settled.adding (hb : b.Settled) {added : List Computed} {windowed : Bool}
    (h : windowed = false → b.windowed = false ∧ ∀ c ∈ added, c.value.Windowless) :
    Settled { b.withScope (added.foldl Scope.compute b.scope) with windowed } := by
  obtain ⟨computed, hrow⟩ := Scope.exists_foldl_compute_eq added b.scope
  refine ⟨?_, ?_, fun hw c hc => ?_⟩
  · rw [hrow]
    exact hb.extras
  · rw [hrow]
    exact hb.base
  · rcases Scope.mem_computed_foldl hc with hc | hc
    · exact hb.computed (h hw).1 c hc
    · exact (h hw).2 c hc

lemma settled_withColumns {columns : List Column}
    (h : ∀ c ∈ columns, ∀ f ∈ c.texts, f.Windowless) : (b.withScope { columns }).Settled :=
  settled_of_row rfl (Scope.windowless_columns h)

lemma settled_withDocument {f : Fragment} (h : f.Windowless) :
    (b.withScope { doc := some (.computed f) }).Settled :=
  settled_of_row rfl (Scope.windowless_computed h)

lemma settled_grouping {terms : List Fragment} {columns : List Column}
    (h : ∀ c ∈ columns, ∀ f ∈ c.texts, f.Windowless) : (b.grouping terms columns).Settled :=
  settled_of_row rfl (Scope.windowless_columns h)

lemma Settled.scopeRel (hb : b.Settled) (hw : b.windowed = false) :
    FragmentLogic.windowless.ScopeRel b.scope.sight b.scope b.scope := by
  have hrow := Scope.scopeRel_self (L := .windowless) (List.Subset.refl b.scope.sight.own)
    (fun _ => trivial) fun f hf => ⟨rfl, hb.row hw f hf⟩
  rw [← hb.extras] at hrow
  exact hrow

lemma yields_settled_includeFields (hb : b.Settled) (hw : b.windowed = false)
    (fields : List (Path × ProjectField)) : (b.includeFields fields).Yields env Settled := by
  unfold includeFields
  refine yields_bind
    (yields_mapM_forall (Q := fun c => ∀ f ∈ Column.texts c, f.Windowless) ?_) ?_
  · rintro ⟨name, e⟩ -
    refine yields_bind (hb.yields_json hw e) fun x hx => yields_pure ?_
    exact List.forall_mem_singleton.2 hx
  · exact fun columns hcolumns => yields_pure (settled_withColumns hcolumns.2)

lemma yields_settled_excludeFields (hb : b.Settled) (hw : b.windowed = false) (names : List Path)
    (stage : String) : (b.excludeFields names stage).Yields env Settled := by
  have hrow := hb.scopeRel hw
  have hdoc (d : Dialect) : (call "JSON_TRANSFORM" (b.scope.documentValue d ::
      names.map fun n => "REMOVE " ++ Fragment.string n.json)).Windowless := by
    refine windowless_append.2 ⟨rfl, windowless_paren.2 (windowless_commas.2 ?_)⟩
    refine List.forall_mem_cons.2 ⟨(hrow.documentValue rfl).2, List.forall_mem_map.2 fun n _ => ?_⟩
    exact windowless_append.2 ⟨windowless_text _, rfl⟩
  unfold excludeFields
  refine yields_ite (fun _ => yields_read ?_) fun _ => yields_pure (settled_withColumns ?_)
  · refine yields_ite (fun _ => yields_then fun _ => ?_) fun _ => ?_
    · exact yields_pure (settled_withDocument (hdoc _))
    · exact yields_pure (settled_withDocument (hdoc _))
  · refine List.forall_mem_map.2 fun e he => List.forall_mem_singleton.2 ?_
    exact (List.forall₂_same.1 hrow.entries e (List.mem_filter.1 he).1).value.2

lemma yields_settled_projectStage (hb : b.Settled) (fields : List (Path × ProjectField)) :
    (b.projectStage fields).Yields env Settled := by
  refine yields_bind (yields_settled_reshapeReady hb) fun b₀ h₀ => ?_
  split
  · exact yields_settled_includeFields h₀.1 h₀.2 _
  · exact yields_settled_excludeFields h₀.1 h₀.2 _ _

lemma yields_settled_addFieldsStage (hb : b.Settled) (fields : List (Path × Expr)) :
    (b.addFieldsStage fields).Yields env Settled := by
  refine yields_bind (yields_settled_wrapIf hb _) fun b₀ h₀ => ?_
  refine yields_bind (yields_mapM_forall
    (Q := fun c : Computed => b₀.windowed = false → c.value.Windowless) ?_) ?_
  · rintro ⟨name, e⟩ -
    cases hw : b₀.windowed with
    | false => exact yields_bind (h₀.1.yields_json hw e) fun x hx => yields_pure fun _ => hx
    | true => exact yields_then fun x => yields_pure fun hfalse => by cases hfalse
  · intro added hadded
    exact yields_pure (h₀.1.adding fun hw => ⟨hw, fun c hc => hadded.2 c hc hw⟩)

lemma windowless_of_columnRel {Γ : Ctx} {columns columns' : List Column}
    (h : List.Forall₂ (FragmentLogic.windowless.ColumnRel Γ) columns columns') :
    ∀ c ∈ columns, ∀ f ∈ c.texts, f.Windowless := by
  induction h with
  | nil => exact List.forall_mem_nil _
  | cons hc _ ih =>
    refine List.forall_mem_cons.2 ⟨?_, ih⟩
    cases hc with
    | of => exact List.forall_mem_nil _
    | output hf => exact List.forall_mem_singleton.2 hf.2

lemma windowless_idColumn {id : Fragment} (h : id.Windowless) (json : Bool) :
    ∀ f ∈ (idColumn id json).texts, f.Windowless :=
  List.forall_mem_singleton.2 h

lemma yields_settled_groupStage (hb : b.Settled) (g : Group) :
    (b.groupStage g).Yields env Settled := by
  refine yields_bind (yields_settled_groupingReady hb) fun b₀ h₀ => ?_
  refine yields_bind (P := fun key => key.id.Windowless) (h₀.1.yields h₀.2 fun Γ =>
    (RenderLogic.run_groupKey fun _ _ => RenderLogic.known_windowless fun _ _ => trivial).imp ?_)
    fun key hkey => ?_
  · rintro _ _ ⟨hid, -⟩
    exact hid.2
  refine yields_bind (h₀.1.yields h₀.2 fun Γ => (RenderLogic.run_accumulatorColumns _
    fun _ _ => RenderLogic.known_windowless fun _ _ => trivial).imp
      fun _ _ => windowless_of_columnRel) ?_
  intro columns hcolumns
  have hall := List.forall_mem_cons.2 ⟨windowless_idColumn hkey key.json, hcolumns⟩
  exact yields_pure (settled_grouping hall)

lemma yields_windowless_bucketColumns (hb : b.Settled) (hw : b.windowed = false) (stage : String)
    (outputs : List (Path × Expr)) :
    (b.render (bucketColumns stage outputs)).Yields env fun columns =>
      ∀ c ∈ columns, ∀ f ∈ c.texts, f.Windowless :=
  hb.yields hw fun _ => (RenderLogic.run_bucketColumns stage
    fun _ _ => RenderLogic.known_windowless fun _ _ => trivial).imp
      fun _ _ => windowless_of_columnRel

lemma yields_settled_bucketStage (hb : b.Settled) (spec : Bucket) :
    (b.bucketStage spec).Yields env Settled := by
  refine yields_bind (yields_settled_groupingReady hb) fun b₀ h₀ => yields_warn_if ?_
  refine yields_bind (P := fun key => key.id.Windowless) (h₀.1.yields h₀.2 fun Γ =>
    (RenderLogic.run_bucketKey (RenderLogic.known_windowless fun _ _ => trivial) _ _).imp ?_)
    fun key hkey => ?_
  · rintro _ _ ⟨hid, -, -⟩
    exact hid.2
  refine yields_bind (yields_windowless_bucketColumns h₀.1 h₀.2 _ _) fun columns hcolumns => ?_
  have hall := List.forall_mem_cons.2 ⟨windowless_idColumn hkey false, hcolumns⟩
  exact yields_pure (settled_of_row rfl (Scope.windowless_columns hall))

lemma yields_settled_bucketAutoStage (b : Draft) (spec : BucketAuto) :
    (b.bucketAutoStage spec).Yields env Settled := by
  refine yields_then fun _ => yields_then fun _ => yields_then fun b₀ => ?_
  refine yields_then fun subject => yields_bind (yields_wrapAs _) ?_
  rintro _ ⟨label, rfl⟩
  have haround := settled_around (b₀.numbered spec.buckets subject) env label
  refine yields_bind (yields_windowless_bucketColumns haround rfl _ _) fun columns hcolumns => ?_
  have hbounds : (bucketBounds label).Windowless := rfl
  have hall := List.forall_mem_cons.2 ⟨windowless_idColumn hbounds true, hcolumns⟩
  exact yields_pure (settled_of_row rfl (Scope.windowless_columns hall))

/-- The entry of a branch is a finished query. -/
lemma yields_windowless_facetEntry (b : Draft) (name : Path) :
    (b.facetEntry name).Yields env fun entry => FragmentLogic.windowless.EntryRel {} entry entry :=
  yields_then fun _ => yields_then fun _ => yields_then fun _ => yields_pure (.selected ⟨rfl, rfl⟩)

lemma yields_windowless_branches (facets : List (Path × List Stage)) (cte : String) (input : Scope)
    (ctes : List Cte) : (branches facets cte input ctes).Yields env fun x =>
      List.Forall₂ (FragmentLogic.windowless.EntryRel {}) x.1 x.1 := by
  induction facets generalizing ctes with
  | nil =>
    rw [branches]
    exact yields_pure .nil
  | cons facet facets ih =>
    rw [branches]
    refine yields_bind (P := fun x => FragmentLogic.windowless.EntryRel {} x.1 x.1) ?_
      fun x hx => ?_
    · obtain ⟨name, ss⟩ := facet
      rw [branch]
      refine yields_then fun b => yields_then fun b => ?_
      exact yields_bind (yields_windowless_facetEntry b name) fun entry hentry => yields_pure hentry
    · exact yields_bind (ih x.2) fun y hy => yields_pure (.cons hx hy)

/-- Every stage leaves windows only in the texts of computed fields. -/
lemma yields_settled_stage (hb : b.Settled) (s : Stage) : (stage s b).Yields env Settled := by
  cases s with
  | filter test =>
    rw [stage]
    refine yields_ite (fun _ => yields_then fun c => ?_) fun _ => ?_
    · exact yields_pure ⟨hb.extras, hb.base, hb.computed⟩
    · refine yields_bind (yields_settled_rowsReady hb) fun b₀ h₀ => yields_then fun c => ?_
      exact yields_pure ⟨h₀.1.extras, h₀.1.base, h₀.1.computed⟩
  | sort keys hint =>
    rw [stage]
    refine yields_bind (yields_settled_wrapIf hb _) fun b₀ h₀ => yields_then fun env' => ?_
    exact yields_pure ⟨h₀.1.extras, h₀.1.base, h₀.1.computed⟩
  | limit n =>
    rw [stage]
    exact yields_pure ⟨hb.extras, hb.base, hb.computed⟩
  | skip n =>
    rw [stage]
    exact yields_pure ⟨hb.extras, hb.base, hb.computed⟩
  | sample n =>
    rw [stage]
    refine yields_bind (yields_settled_wrapIf hb _) fun b₀ h₀ => yields_pure ?_
    exact ⟨h₀.1.extras, h₀.1.base, h₀.1.computed⟩
  | lookup spec =>
    rw [stage]
    refine yields_bind (yields_settled_rowsReady hb) fun b₀ h₀ => ?_
    refine yields_then fun label => yields_then fun inner => yields_then fun env' => yields_pure ?_
    exact ⟨h₀.1.extras, h₀.1.base, h₀.1.computed⟩
  | lookupPipeline => rw [stage]; exact yields_unsupported _
  | unwind spec =>
    rw [stage]
    refine yields_bind (yields_settled_rowsReady hb) fun b₀ h₀ => yields_then fun env' => ?_
    split
    · exact yields_unsupported _
    · exact yields_then fun label => yields_pure ⟨h₀.1.extras, h₀.1.base, h₀.1.computed⟩
  | redact decision =>
    rw [stage]
    refine yields_then fun _ => yields_bind (yields_settled_rowsReady hb) fun b₀ h₀ => ?_
    exact yields_then fun value => yields_pure ⟨h₀.1.extras, h₀.1.base, h₀.1.computed⟩
  | project fields => rw [stage]; exact yields_settled_projectStage hb fields
  | addFields fields => rw [stage]; exact yields_settled_addFieldsStage hb fields
  | unset names =>
    rw [stage]
    refine yields_bind (yields_settled_reshapeReady hb) fun b₀ h₀ => ?_
    exact yields_settled_excludeFields h₀.1 h₀.2 names _
  | replaceRoot root =>
    rw [stage]
    refine yields_bind (yields_settled_reshapeReady hb) fun b₀ h₀ => ?_
    refine yields_bind (h₀.1.yields_json h₀.2 root) fun x hx => yields_pure ?_
    exact settled_withDocument hx
  | group spec => rw [stage]; exact yields_settled_groupStage hb spec
  | count field =>
    rw [stage]
    refine yields_then fun b₀ => yields_pure (settled_grouping ?_)
    exact List.forall_mem_singleton.2 (List.forall_mem_singleton.2 (windowless_text _))
  | bucket spec => rw [stage]; exact yields_settled_bucketStage hb spec
  | bucketAuto spec => rw [stage]; exact yields_settled_bucketAutoStage b spec
  | windowFields spec =>
    rw [stage]
    refine yields_bind (yields_settled_wrapIf hb _) fun b₀ h₀ => yields_then fun partition => ?_
    exact yields_then fun added => yields_pure (h₀.1.adding (by rintro ⟨⟩))
  | graphLookup spec =>
    rw [stage]
    refine yields_then fun _ => yields_bind (yields_settled_rowsReady hb) fun b₀ h₀ => ?_
    refine yields_then fun start => yields_then fun cte => yields_then fun walk => ?_
    refine yields_then fun _ => yields_then fun ranked => yields_then fun label => ?_
    exact yields_then fun env' => yields_pure ⟨h₀.1.extras, h₀.1.base, h₀.1.computed⟩
  | facet facets =>
    rw [stage]
    refine yields_then fun name => yields_then fun query => yields_then fun _ => ?_
    refine yields_bind (yields_windowless_branches _ _ _ _) fun x hx => yields_pure ?_
    refine settled_withDocument (b := ofSource .dual {} x.2) ?_
    exact (FragmentLogic.rel_object hx).2
  | unionWith source nested =>
    refine (yields_unionStage b source nested).imp ?_
    rintro _ ⟨_, _, _, _, rfl⟩
    exact settled_of_row rfl (List.forall_mem_nil _)
  | merge spec => rw [stage]; exact yields_fault _
  | out spec => rw [stage]; exact yields_fault _

/-- In every draft of a compilation windows are only in the texts of computed fields. -/
lemma Reachable.settled (h : b.Reachable) : b.Settled := by
  refine h.invariant (fun _ _ _ _ => ?_) (fun _ _ _ _ => ?_) fun s b env _ hb => ?_
  · exact yields_then fun _ => yields_pure (settled_of_row rfl (List.forall_mem_nil _))
  · exact yields_then fun _ => yields_then fun _ => yields_pure (settled_of_wrapped rfl)
  · exact yields_settled_stage hb s

end Draft

/-! ## What a window stage reads -/

/-- Does the path lead to the value of a window function? -/
def Scope.LeadsToWindow (σ : Scope) (p : Path) : Prop :=
  ∃ f ∈ (σ.resolve p false).texts, ¬ f.Windowless

/-- Does the reference read a field that the query computes, a part of one or one around it? -/
def Reference.Pending (σ : Scope) : Reference → Prop
  | .field p => ∃ c ∈ σ.computed, p.overlaps c.name = true
  | .wholeDocument => True

/-- What a window stage reads besides the keys of its order. -/
def WindowFields.inputs (spec : WindowFields) : List Expr :=
  spec.partitionBy.toList ++ spec.outputs.filterMap fun output => output.2.arg

/-- A window stage needs a query around the current one: if this one groups or cuts its rows, or if
the stage reads a field that it computes. -/
def Draft.MustWrap (b : Draft) (spec : WindowFields) : Prop :=
  b.grouped = true ∨ b.query.rows.isLimited = true ∨
    ∃ e ∈ spec.inputs, ∃ x ∈ e.references, x.Pending b.scope

/-- The draft to which a window stage adds its functions: the query around the current one if it is
needed, else the current one. -/
def Draft.WindowsOver (env : Env) (spec : WindowFields) (b b₀ : Draft) : Prop :=
  b.MustWrap spec ∧ (∃ label, b₀ = b.rewrapped env label) ∨ ¬ b.MustWrap spec ∧ b₀ = b

/-- No text that a window stage reads, besides the keys of its order, has a window function in
it. -/
def WindowFields.ReadsNoWindow (spec : WindowFields) (σ : Scope) : Prop :=
  ∀ e ∈ spec.inputs, ∀ x ∈ e.references, ∀ f ∈ x.texts σ, f.Windowless

/-- The text is flat if there is no window function in it, or if no sort key leads to one. -/
def WindowFields.NestsByKeys (spec : WindowFields) (σ : Scope) (f : Fragment) : Prop :=
  f.Flat ↔ f.Windowless ∨ ∀ k ∈ spec.sortBy, ¬ σ.LeadsToWindow k.path

namespace Scope

variable {σ : Scope} {p : Path}

lemma not_leadsToWindow_iff :
    ¬ σ.LeadsToWindow p ↔ ∀ f ∈ (σ.resolve p false).texts, f.Windowless := by
  simp [LeadsToWindow]

lemma not_leadsToWindow_of_texts (h : ∀ f ∈ σ.texts, f.Windowless) (p : Path) :
    ¬ σ.LeadsToWindow p :=
  not_leadsToWindow_iff.2
    (List.forall_mem_append.1 ((Reference.field p).windowless_texts h)).1

/-- What overlaps no computed field is read as if there were none. -/
lemma resolve_of_not_pending (h : ¬ (Reference.field p).Pending σ) :
    σ.resolve p false = ({ σ with computed := [] } : Scope).resolve p false := by
  have hnone : σ.computed.reverse.findSome? (·.resolve? p) = none := by
    refine List.findSome?_eq_none_iff.2 fun c hc => ?_
    have hfree : p.overlaps c.name = false :=
      Bool.eq_false_iff.2 fun hover => h ⟨c, List.mem_reverse.1 hc, hover⟩
    rw [Path.overlaps, Bool.or_eq_false_iff] at hfree
    obtain ⟨hne, hbelow⟩ := below?_eq_none hfree.1
    rw [Computed.resolve?, resolveIn, if_neg hne, hbelow]
    rfl
  unfold resolve
  rw [hnone]
  rfl

lemma not_leadsToWindow_of_not_pending (hbase : ∀ f ∈ σ.baseTexts, f.Windowless)
    (h : ¬ (Reference.field p).Pending σ) : ¬ σ.LeadsToWindow p := by
  rw [LeadsToWindow, resolve_of_not_pending h]
  refine not_leadsToWindow_of_texts (σ := { σ with computed := [] }) ?_ p
  rw [texts, List.map_nil, List.append_nil]
  exact hbase

end Scope

namespace Draft

open Render

variable {b : Draft} {env : Env}

lemma windowless_dotFragment {l : Location} : l.dotFragment.Windowless ↔ l.doc.Windowless := by
  rw [Location.dotFragment, windowless_append, and_iff_left]
  refine windowless_iff.2 fun p hp => ?_
  obtain ⟨f, hf, hp⟩ := List.mem_flatten.1 hp
  obtain ⟨step, -, rfl⟩ := List.mem_map.1 hf
  rw [List.mem_singleton.1 hp]
  rfl

lemma windowless_scalar {d : Dialect} {l : Location} :
    (l.scalar d none).Windowless ↔ l.doc.Windowless := by
  unfold Location.scalar
  split
  · simp [jsonQuery]
  · split
    · rw [windowless_append, windowless_dotFragment, and_iff_left]
      rfl
    · simp [jsonValue]

/-- The text of a sort key has a window function in it if the key leads to one. -/
lemma windowless_sortValue {σ : Scope} {p : Path} :
    (sortValue env σ p false).1.Windowless ↔ ¬ σ.LeadsToWindow p := by
  rw [Scope.not_leadsToWindow_iff]
  unfold sortValue
  cases hr : σ.resolve p false with
  | value f json => simp [Resolved.texts]
  | place l =>
    have hvalue :
        ({ env with scope := σ } : Env).fieldValue p none = l.scalar env.dialect none := by
      simp only [Env.fieldValue, Env.resolve, hr]
    dsimp only
    split
    · simp [Resolved.texts, windowless_dotFragment]
    · simp [Resolved.texts, hvalue, windowless_scalar]
  | missing => exact iff_of_true rfl (List.forall_mem_nil _)

lemma windowless_orderTerm {value : Fragment} {order : SortOrder} :
    (orderTerm value order).fragment.Windowless ↔ value.Windowless := by
  cases order with
  | ascending => exact windowless_append.trans (and_iff_left rfl)
  | descending => exact windowless_append.trans (and_iff_left rfl)

/-- Where its subject has no windows, a partition has some if a sort key leads to one. -/
lemma yields_windowless_partition (b : Draft) (spec : WindowFields)
    (h : ∀ e ∈ spec.partitionBy, (b.render e.value).Yields env Windowless) :
    (b.partition spec).Yields env fun f =>
      (f.Windowless ↔ ∀ k ∈ spec.sortBy, ¬ b.scope.LeadsToWindow k.path) := by
  refine yields_bind (yields_optionMapM h) fun subject hsubject => yields_read (yields_pure ?_)
  have hparts : ∀ f ∈ subject.toList.map (text "PARTITION BY " ++ ·), f.Windowless := by
    refine List.forall_mem_map.2 fun f hf => windowless_append.2 ⟨windowless_text _, ?_⟩
    exact hsubject f (Option.mem_toList.1 hf)
  rw [windowless_joined, List.forall_mem_append, and_iff_right hparts]
  split
  · next hempty =>
    rw [List.isEmpty_iff, List.map_eq_nil_iff, List.map_eq_nil_iff] at hempty
    rw [hempty]
    exact iff_of_true (List.forall_mem_nil _) (List.forall_mem_nil _)
  · rw [List.forall_mem_singleton, windowless_append, windowless_commas,
      and_iff_right (windowless_text _)]
    simp only [List.forall_mem_map, windowless_orderTerm, windowless_sortValue]

lemma mustWrap_iff {spec : WindowFields} :
    (b.grouped || b.query.rows.isLimited || spec.inputs.any (readsComputed b.scope)) = true ↔
      b.MustWrap spec := by
  have hreads (e : Expr) :
      readsComputed b.scope e = true ↔ ∃ x ∈ e.references, x.Pending b.scope := by
    rw [readsComputed, List.any_eq_true]
    refine exists_congr fun x => and_congr_right fun _ => ?_
    cases x with
    | field p => exact List.any_eq_true
    | wholeDocument => exact iff_of_true rfl trivial
  simp only [MustWrap, Bool.or_eq_true, List.any_eq_true, hreads, or_assoc]

/-- A reference that is not pending reads no window, unless the lookup that it counts is by a field
that leads to one. -/
lemma Settled.windowless_reference (hb : b.Settled) {x : Reference} (hx : ¬ x.Pending b.scope)
    (hkeys : ∀ l ∈ b.scope.lookups, ∀ key ∈ l.key, ¬ b.scope.LeadsToWindow key.localField) :
    ∀ f ∈ x.texts b.scope, f.Windowless := by
  cases x with
  | field p =>
    refine List.forall_mem_append.2 ⟨?_, fun f hf => ?_⟩
    · exact Scope.not_leadsToWindow_iff.1 (Scope.not_leadsToWindow_of_not_pending hb.base hx)
    · obtain ⟨key, hkey, hf⟩ := List.mem_flatMap.1 hf
      obtain ⟨l, hl, hkey⟩ := Option.bind_eq_some_iff.1 (Option.mem_toList.1 hkey)
      have hmem : l ∈ b.scope.lookups := List.mem_reverse.1 (List.mem_of_find?_eq_some hl)
      exact Scope.not_leadsToWindow_iff.1 (hkeys l hmem key hkey) f hf
  | wholeDocument => exact absurd trivial hx

lemma yields_windowsOver (b : Draft) (spec : WindowFields) :
    (b.wrapIf (b.grouped || b.query.rows.isLimited ||
      spec.inputs.any (readsComputed b.scope))).Yields env (WindowsOver env spec b) := by
  refine yields_ite (fun h => ?_) fun h => yields_pure ?_
  · exact (yields_rewrapped b).imp fun b₀ hb₀ => .inl ⟨mustWrap_iff.1 h, hb₀⟩
  · exact .inr ⟨fun hmust => h (mustWrap_iff.2 hmust), rfl⟩

/-- The functions of a stage whose inputs read no window nest only by its sort keys. -/
lemma yields_windowStage_added (b : Draft) (spec : WindowFields) :
    (b.windowStage spec).Yields env fun b' => ∃ (b₀ : Draft) (added : List Computed),
      WindowsOver env spec b b₀ ∧ added.map Computed.name = spec.outputs.map Prod.fst ∧
      b' = { b₀.withScope (added.foldl Scope.compute b₀.scope) with windowed := true } ∧
      ∀ c ∈ added, spec.ReadsNoWindow b₀.scope → spec.NestsByKeys b₀.scope c.value := by
  unfold windowStage
  refine yields_bind (yields_windowsOver b spec) fun b₀ hover => ?_
  have hinput {e : Expr} (he : e ∈ spec.inputs) (hread : spec.ReadsNoWindow b₀.scope)
      (type : Option JsonType) :
      ((Reading.ofExpr e).value type).Yields { env with scope := b₀.scope } Windowless :=
    Expr.yields_windowless (hread e he) type
  have hpartition (hread : spec.ReadsNoWindow b₀.scope) :=
    yields_windowless_partition b₀ spec fun e he =>
      yields_within (hinput (List.mem_append_left _ (Option.mem_toList.2 he)) hread none)
  refine yields_bind (yields_imp hpartition) fun partition hpartition => ?_
  refine yields_bind (yields_mapM (R := fun output (c : Computed) =>
    (spec.ReadsNoWindow b₀.scope → spec.NestsByKeys b₀.scope c.value) ∧ c.name = output.1) ?_) ?_
  · rintro ⟨name, out⟩ hout
    have hvalue (hread : spec.ReadsNoWindow b₀.scope) :
        (b₀.render (out.render partition (!spec.sortBy.isEmpty))).Yields env
          (FlatOver partition) := by
      refine yields_within (yields_flatOver_windowFunction fun r hr => ?_)
      cases harg : out.arg with
      | none =>
        rw [harg, Reading.ofOption] at hr
        cases hr
      | some e =>
        rw [harg, Reading.ofOption] at hr
        cases hr
        refine hinput (List.mem_append_right _ ?_) hread
        exact List.mem_filterMap.2 ⟨(name, out), hout, harg⟩
    refine yields_bind (yields_imp hvalue) fun f hf => yields_pure ⟨fun hread => ?_, rfl⟩
    rw [WindowFields.NestsByKeys, ← hpartition hread]
    exact hf hread
  · intro added hadded
    obtain ⟨hnests, hnames⟩ := (List.forall₂_and_left _ _).1 hadded.flip
    refine yields_pure ⟨b₀, added, hover, ?_, rfl, hnests⟩
    rw [← List.forall₂_eq_eq_eq, List.forall₂_map_left_iff, List.forall₂_map_right_iff]
    exact hnames

/-- What a window stage adds, and the draft to which it adds it: the query is wrapped if it groups
or cuts its rows, or if the partition or an argument reads a field that it computes. Only such fields
lead to the values of window functions. If the query is wrapped, no window function stands within
another. Else, if no lookup is by a field that leads to the value of a window function, one stands
within another exactly if a sort key leads to one. -/
theorem windows_nest_only_by_sort_keys {b : Draft} (hb : b.Reachable) (spec : WindowFields)
    (env : Env) {e e' : Emission} {b' : Draft}
    (hrun : ((b.windowStage spec).run env).run e = .ok b' e') :
    ∃ (b₀ : Draft) (added : List Computed),
      WindowsOver env spec b b₀ ∧ added.map Computed.name = spec.outputs.map Prod.fst ∧
      b' = { b₀.withScope (added.foldl Scope.compute b₀.scope) with windowed := true } ∧
      (∀ p, b₀.scope.LeadsToWindow p → (Reference.field p).Pending b.scope) ∧
      (b.MustWrap spec → ∀ c ∈ added, c.value.Flat) ∧
      ((∀ l ∈ b.scope.lookups, ∀ key ∈ l.key, ¬ b.scope.LeadsToWindow key.localField) →
        ∀ c ∈ added, (c.value.Flat ↔
          c.value.Windowless ∨ ∀ k ∈ spec.sortBy, ¬ b₀.scope.LeadsToWindow k.path)) := by
  obtain ⟨b₀, added, hover, hnames, hb', hnests⟩ := yields_windowStage_added b spec hrun
  refine ⟨b₀, added, hover, hnames, hb', ?_⟩
  rcases hover with ⟨hmust, label, rfl⟩ | ⟨hmust, rfl⟩
  · have htexts : ∀ f ∈ (b.rewrapped env label).scope.texts, f.Windowless :=
      (settled_rewrapped b env label).row rfl
    have hnone := Scope.not_leadsToWindow_of_texts htexts
    have hread : spec.ReadsNoWindow (b.rewrapped env label).scope :=
      fun e _ x _ => x.windowless_texts htexts
    refine ⟨fun p hp => absurd hp (hnone p), fun _ c hc => ?_, fun _ c hc => hnests c hc hread⟩
    exact (hnests c hc hread).2 (.inr fun k _ => hnone k.path)
  · have hbase := hb.settled.base
    refine ⟨fun p hp => ?_, fun h => absurd h hmust, fun hkeys c hc => hnests c hc ?_⟩
    · exact Classical.not_not.1 fun hfree => Scope.not_leadsToWindow_of_not_pending hbase hfree hp
    · intro e he x hx
      have hfree : ¬ x.Pending b₀.scope := fun h => hmust (.inr (.inr ⟨e, he, x, hx, h⟩))
      exact hb.settled.windowless_reference hfree hkeys

/-- Ranks of the rows in the order of a field, in each part of the rows by itself. -/
def ranks (part : Option Expr) (key name : String) : WindowFields :=
  ⟨part, [⟨⟨[key]⟩, .ascending⟩], [(⟨[name]⟩, { op := .rank, arg := none })]⟩

/-- Ranks within parts of equal rank need a query around that of the first ranks. -/
def ranksByRank : WindowFields :=
  ranks (some (.field { path := ⟨["r"]⟩ })) "a" "s"

/-- The value of the first ranks is a window function, and it is not within the second ones. -/
theorem ranksByRank_flat : ∃ (b b' : Draft) (e e' : Emission) (added : List Computed),
    b.Reachable ∧ b.scope.LeadsToWindow ⟨["r"]⟩ ∧
    ((b.windowStage ranksByRank).run (Env.of {} {})).run e = .ok b' e' ∧
    (∃ label, b'.scope = added.foldl Scope.compute (b.rewrapped (Env.of {} {}) label).scope) ∧
    added.map Computed.name = [⟨["s"]⟩] ∧ ∀ c ∈ added, c.value.Flat := by
  have hbase : ((ofCollection "orders" "base" []).run (Env.of {} {})).run {} = .ok orders {} := rfl
  have hranks {b e} (h : ((stage (.windowFields (ranks none "a" "r")) orders).run
      (Env.of {} {})).run {} = .ok b e) : b.Reachable :=
    .stage (.collection hbase) h
  have hfirst := hranks rfl
  obtain ⟨b₀, added, hover, hnames, hb', -, hflat, -⟩ :=
    windows_nest_only_by_sort_keys hfirst ranksByRank (Env.of {} {}) (e := {}) rfl
  rcases hover with ⟨hmust, label, rfl⟩ | ⟨hno, -⟩
  · refine ⟨_, _, {}, _, added, hfirst, ?_, rfl, ⟨label, ?_⟩, hnames, hflat hmust⟩
    · exact ⟨_, List.mem_cons_self, by decide⟩
    · exact congrArg Draft.scope hb'
  · refine absurd (.inr (.inr ?_)) hno
    exact ⟨_, List.mem_cons_self, .field ⟨["r"]⟩, List.mem_cons_self, _, List.mem_cons_self, rfl⟩

/-- After the stages a field of the orders is the value of a window function, the query is not
wrapped for further ones, and one of these stands around another. -/
def Nests (ss : List Stage) (field : Path) (spec : WindowFields) : Prop :=
  ∃ (b b' : Draft) (e e' : Emission),
    ((stages ss orders).run (Env.of {} {})).run {} = .ok b e ∧
    ((b.windowStage spec).run (Env.of {} {})).run e = .ok b' e' ∧
    b.scope.LeadsToWindow field ∧ b'.query = b.query ∧ ∃ c ∈ b'.scope.computed, ¬ c.value.Flat

/-- Ranks in the order of other ranks nest, and so does a sum of counts of what was looked up by a
field that is a rank now. -/
theorem window_within_window :
    Nests [.windowFields (ranks none "a" "r")] ⟨["r"]⟩ (ranks none "r" "s") ∧
    Nests [.lookup stockLookup, .windowFields (ranks none "a" "item")] ⟨["item"]⟩
      ⟨none, [], [(⟨["n"]⟩, { op := .sum, arg := elementCount { path := ⟨["inv"]⟩ } })]⟩ := by
  refine ⟨⟨_, _, _, _, rfl, rfl, ⟨_, List.mem_cons_self, by decide⟩, rfl, ?_⟩,
    ⟨_, _, _, _, rfl, rfl, ⟨_, List.mem_cons_self, by decide⟩, rfl, ?_⟩⟩
  · exact ⟨_, List.mem_cons_of_mem _ List.mem_cons_self, by decide⟩
  · exact ⟨_, List.mem_cons_of_mem _ List.mem_cons_self, by decide⟩

end Draft

end PipelineSql
