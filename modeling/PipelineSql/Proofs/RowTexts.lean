import PipelineSql.Proofs.Relation.Alike
import PipelineSql.Proofs.Yields

/-!
# The texts of a row

A row holds the texts of a computed document, of selected columns and of computed fields. All else
in it is columns of row sources. So a relation that respects how fragments are built relates to
itself what is read of a row if it relates to themselves the texts that are read, whatever else the
row holds.
-/

namespace PipelineSql

/-! ## What a row holds -/

/-- The text of a computed document. -/
def DocSource.texts : DocSource → List Fragment
  | .column .. => []
  | .computed value => [value]

/-- The text that a column selects. -/
def Column.texts (c : Column) : List Fragment :=
  match c.value with
  | .of _ => []
  | .output value => [value]

/-- The texts that a row holds. All else in it is columns of row sources. -/
def Scope.texts (σ : Scope) : List Fragment :=
  σ.doc.toList.flatMap DocSource.texts ++ σ.columns.flatMap Column.texts ++
    σ.computed.map Computed.value

/-- The text that a path leads to. -/
def Resolved.texts : Resolved → List Fragment
  | .value f _ => [f]
  | .place l => [l.doc]
  | .missing => []

/-- The texts that a reference may read. What a lookup found is counted by the field of the row by
which it looked up. -/
def Reference.texts (σ : Scope) : Reference → List Fragment
  | .field p => (σ.resolve p false).texts ++
      (σ.lookup? p >>= fun l => l.key).toList.flatMap fun key =>
        (σ.resolve key.localField false).texts
  | .wholeDocument => σ.texts

/-- The row of the query around holds columns alone. -/
lemma Scope.texts_wrapped (σ : Scope) (label data : String) :
    (σ.wrapped label data).texts = [] := by
  unfold Scope.wrapped
  split
  · rfl
  · simp [Scope.texts, Column.texts]

/-! ## Sources in sight -/

/-- The row sources to which a row refers. -/
def Scope.labels (σ : Scope) : List String :=
  (match σ.doc with
    | some (.column source _) => [source]
    | _ => []) ++
  (σ.columns.filterMap fun c => match c.value with
    | .of source => some source
    | .output _ => none) ++
  σ.lookups.map Found.source ++ σ.unwinds.map Unwound.source

/-- A context in which all row sources of a row are in sight. -/
def Scope.sight (σ : Scope) : Ctx where
  own := σ.labels.map fun label => ⟨label, .stored none ""⟩

/-- A context in which all row sources of a row and of the element variables are in sight. -/
def Env.sight (env : Env) : Ctx where
  own := env.elements.map (fun x => elementSource x.2) ++ env.scope.sight.own

/-- The rows of the element variables are in sight. -/
lemma Env.sees_elements (env : Env) :
    ∀ x ∈ env.elements, ∃ Γ ∈ some env.sight, elementSource x.2 ∈ Γ.sources :=
  fun _ hx => ⟨_, rfl, List.mem_append_left _ (List.mem_append_left _ (List.mem_map_of_mem hx))⟩

section Sight

variable {L : FragmentLogic} {Γ : Ctx} {σ : Scope}

/-- The row sources of a row are in sight wherever those of its own sight are. -/
lemma Scope.sees_label {label column : String} (hΓ : σ.sight.own ⊆ Γ.own)
    (h : label ∈ σ.labels) : Γ.Sees label column :=
  Ctx.sees_own (s := ⟨label, .stored none ""⟩) (hΓ (List.mem_map_of_mem h)) trivial

/-- A row is related to itself if its texts are, but for what is selected beside it. -/
lemma Scope.scopeRel_self (hΓ : σ.sight.own ⊆ Γ.own) (hstored : ∀ name, L.Stored name)
    (htexts : ∀ f ∈ σ.texts, L.Rel Γ f f) :
    L.ScopeRel Γ { σ with extras := [] } { σ with extras := [] } where
  doc := by
    cases hd : σ.doc with
    | none => exact .none
    | some doc =>
      cases doc with
      | column source name => exact .some (.column (sees_label hΓ (by simp [Scope.labels, hd])))
      | computed f =>
        exact .some (.computed (htexts f (by simp [Scope.texts, hd, DocSource.texts])))
  columns := by
    refine List.forall₂_same.2 fun c hc => ?_
    obtain ⟨name, value, json⟩ := c
    cases value with
    | of source =>
      refine .of (sees_label hΓ ?_)
      simp only [Scope.labels, List.mem_append, List.mem_filterMap]
      exact .inl (.inl (.inr ⟨_, hc, rfl⟩))
    | output f =>
      refine .output (htexts f ?_)
      simp only [Scope.texts, List.mem_append, List.mem_flatMap]
      exact .inl (.inr ⟨_, hc, List.mem_cons_self⟩)
  computed := by
    refine List.forall₂_same.2 fun c hc => ?_
    exact .mk (htexts c.value (List.mem_append_right _ (List.mem_map_of_mem hc)))
  lookups := by
    refine List.forall₂_same.2 fun l hl => .mk (sees_label hΓ ?_) fun _ _ => hstored _
    simp only [Scope.labels, List.mem_append]
    exact .inl (.inr (List.mem_map_of_mem hl))
  unwinds := by
    refine List.forall₂_same.2 fun u hu => ?_
    have hmem : u.source ∈ σ.labels := by
      simp only [Scope.labels, List.mem_append]
      exact .inr (List.mem_map_of_mem hu)
    exact .mk (sees_label hΓ hmem) (sees_label hΓ hmem)
  extras := .nil

/-! ## What is read of a row -/

/-- What a path stands for is related to itself if the text to which it leads is. -/
lemma Resolved.rel_self {r : Resolved} (h : ∀ f ∈ r.texts, L.Rel Γ f f) : L.ResolvedRel Γ r r := by
  cases r with
  | value f json => exact .value (h f List.mem_cons_self)
  | place l => exact .place (.mk (h l.doc List.mem_cons_self))
  | missing => exact .missing

/-- What may be read of a row is related to itself if the texts that are read are. -/
lemma Scope.sightRel_self (hΓ : σ.sight.own ⊆ Γ.own) (hstored : ∀ name, L.Stored name)
    (htexts : ∀ x, L.Visible x → ∀ f ∈ x.texts σ, L.Rel Γ f f) : L.SightRel Γ σ σ where
  resolve hv := Resolved.rel_self fun f hf => htexts _ hv f (List.mem_append_left _ hf)
  lookup _ := rfl
  found hv hl hkey := by
    refine ⟨hstored _, Resolved.rel_self fun f hf => htexts _ hv f (List.mem_append_right _ ?_)⟩
    rw [hl]
    exact List.mem_flatMap.2 ⟨_, Option.mem_toList.2 hkey, hf⟩
  document hv _ _ hd := (scopeRel_self hΓ hstored (htexts _ hv)).documentValue hd

/-- The text to which a path leads is related to some text. -/
lemma FragmentLogic.ResolvedRel.exists_rel {r r' : Resolved} (h : L.ResolvedRel Γ r r') :
    ∀ f ∈ r.texts, ∃ g, L.Rel Γ f g := by
  intro f hf
  cases h with
  | value h =>
    rw [List.mem_singleton.1 hf]
    exact ⟨_, h⟩
  | place h =>
    rw [List.mem_singleton.1 hf]
    cases h with
    | mk h => exact ⟨_, h⟩
  | missing => cases hf

/-- What a reference reads is texts of the row, or columns: it is related if the texts of the row
are. -/
lemma Reference.exists_rel_texts (hstored : ∀ name, L.Stored name)
    (htexts : ∀ Γ, ∀ f ∈ σ.texts, L.Rel Γ f f) (x : Reference) :
    ∀ f ∈ x.texts σ, ∃ Γ g, L.Rel Γ f g := by
  have hrow := Scope.scopeRel_self (σ := σ) (List.Subset.refl _) hstored (htexts _)
  have hresolve (p : Path) : ∀ f ∈ (σ.resolve p false).texts, ∃ Γ g, L.Rel Γ f g :=
    fun f hf => ⟨_, (hrow.resolve p false).exists_rel f hf⟩
  cases x with
  | field p =>
    refine List.forall_mem_append.2 ⟨hresolve p, fun f hf => ?_⟩
    obtain ⟨key, -, hf⟩ := List.mem_flatMap.1 hf
    exact hresolve key.localField f hf
  | wholeDocument => exact fun f hf => ⟨_, f, htexts σ.sight f hf⟩

/-- An environment is related to itself if the texts that may be read of its row are. -/
lemma Env.envRel_sight (env : Env) (hspeaks : L.Speaks env.dialect env.dialect)
    (hstored : ∀ name, L.Stored name)
    (htexts : ∀ x, L.Visible x → ∀ f ∈ x.texts env.scope, L.Rel env.sight f f)
    (hchecked : env.checked = true → L.Checked) :
    L.EnvRel env.dataColumn (some env.sight) env env := by
  refine ⟨hspeaks, rfl, rfl, rfl, rfl, rfl, rfl, hchecked, ?_, env.sees_elements⟩
  rintro _ ⟨⟩
  exact Scope.sightRel_self (List.subset_append_right _ _) hstored htexts

end Sight

/-- An environment is related to itself, be sums checked in it or not. -/
lemma Env.alike_sight {checked : Prop} (env : Env) (hchecked : env.checked = true → checked) :
    Env.Alike (.equal checked) env.dataColumn (some env.sight) env env :=
  ⟨envRel_sight env (.refl _) (fun _ => trivial) (fun _ _ _ _ => rfl) hchecked, rfl, rfl⟩

/-- A computation that is related to itself yields what related results are. -/
lemma Render.Alike.yields_self {α : Type} {env : Env} {r : Render α} {P : α → Prop}
    {E : Env → Env → Prop} {F : Error → Prop} (hrun : r.Alike E F (fun a _ => P a) r)
    (henv : E env env) : r.Yields env P := by
  intro e a e' h
  have hsame := hrun _ _ e henv
  rw [h] at hsame
  cases hsame with
  | ok ha => exact ha

end PipelineSql
