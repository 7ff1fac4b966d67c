import PipelineSql.Proofs.Relation.Render
import PipelineSql.Render.Place

/-!
# Fields and variables of related environments
-/

namespace PipelineSql

namespace FragmentLogic

variable (L : FragmentLogic) (Γ : Ctx)

/-- Arrays at the same path of related values. -/
inductive ArrayRel : ArraySource → ArraySource → Prop where
  | mk {f g path each} : L.Rel Γ f g → ArrayRel ⟨f, path, each⟩ ⟨g, path, each⟩

/-- The same path in related values, or none. -/
inductive PlaceRel : Option (Fragment × String) → Option (Fragment × String) → Prop where
  | none : PlaceRel none none
  | some {f g path} : L.Rel Γ f g → PlaceRel (some (f, path)) (some (g, path))

/-- Related texts that are both JSON text or both not. -/
def JsonRel (a b : Fragment × Bool) : Prop :=
  L.Rel Γ a.1 b.1 ∧ a.2 = b.2

variable {L Γ}

lemma ArrayRel.mono {Δ : Ctx} (le : Γ ≤ Δ) {a a' : ArraySource} (h : L.ArrayRel Γ a a') :
    L.ArrayRel Δ a a' := by
  cases h with
  | mk hf => exact .mk (L.mono le hf)

/-! ## Extraction -/

@[mono]
lemma rel_jsonQuery {f g : Fragment} {path : String} {wrapper : Bool} (h : L.Rel Γ f g) :
    L.Rel Γ (jsonQuery f path wrapper) (jsonQuery g path wrapper) := by
  have hpath := rel_append (rel_append h (rel_text ", ")) (rel_string path)
  cases wrapper with
  | false => exact rel_append (rel_text _) (rel_paren (rel_append hpath (rel_text _)))
  | true => exact rel_append (rel_text _) (rel_paren (rel_append hpath (rel_text _)))

@[mono]
lemma rel_jsonValue {d d' : Dialect} {f g : Fragment} {path : String} {type : Option JsonType}
    (hd : L.Speaks d d') (h : L.Rel Γ f g) :
    L.Rel Γ (jsonValue d f path type) (jsonValue d' g path type) := by
  have hpath := rel_append (rel_append h (rel_text ", ")) (rel_string path)
  have hcall : L.Rel Γ (Fragment.call "JSON_VALUE" [f, Fragment.string path])
      (Fragment.call "JSON_VALUE" [g, Fragment.string path]) :=
    rel_call₂ h (rel_string _)
  unfold jsonValue
  split
  · exact rel_jsonQuery h
  · exact hcall
  · exact hcall
  · refine rel_append (rel_text _) (rel_paren ?_)
    exact rel_append (rel_append hpath (rel_text _)) (rel_returnType hd _)

lemma LocationRel.dotFragment {l l' : Location} (h : L.LocationRel Γ l l') :
    L.Rel Γ l.dotFragment l'.dotFragment := by
  obtain ⟨hf⟩ := h
  refine rel_append hf (rel_flatten (forall₂_self fun f hf => ?_))
  obtain ⟨_, _, rfl⟩ := List.mem_map.1 hf
  exact rel_ofToken rfl

variable (L) in
/-- Scalars may be extracted as the type, or without one as text. -/
class Extracts (type : Option JsonType) : Prop where
  rel_method : ∀ Γ, L.Rel Γ (Fragment.text (itemMethod (type.getD .varchar)))
    (Fragment.text (itemMethod (type.getD .varchar)))

instance : L.Extracts none :=
  ⟨fun _ => rel_text ".string()"⟩

lemma extracts_some {type : JsonType} (h : type ≠ .boolean) : L.Extracts (some type) := by
  cases type with
  | varchar => exact ⟨fun _ => rel_text ".string()"⟩
  | number => exact ⟨fun _ => rel_text ".number()"⟩
  | date => exact ⟨fun _ => rel_text ".date()"⟩
  | timestamp => exact ⟨fun _ => rel_text ".timestamp()"⟩
  | boolean => exact absurd rfl h
  | json => exact ⟨fun _ => rel_text ""⟩

instance : L.Extracts (some .number) :=
  extracts_some (by decide)

instance : L.Extracts (some .varchar) :=
  extracts_some (by decide)

/-- Where there are booleans they may be extracted. -/
lemma extracts_boolean {d d' : Dialect} (hd : L.Speaks d d') (h : d.hasBoolean = true) :
    L.Extracts (some .boolean) :=
  ⟨fun _ => rel_said hd (.booleanMethod h)⟩

/-- Where there are booleans everything may be extracted. -/
lemma extracts_all {d d' : Dialect} (hd : L.Speaks d d') (h : d.hasBoolean = true)
    (type : Option JsonType) : L.Extracts type := by
  cases type with
  | none => infer_instance
  | some type =>
    cases type with
    | boolean => exact extracts_boolean hd h
    | _ => exact extracts_some (by decide)

instance {type type' : Option JsonType} [h : L.Extracts type] [h' : L.Extracts type'] :
    L.Extracts (type.or type') := by
  cases type with
  | none => exact h'
  | some _ => exact h

lemma LocationRel.scalar {l l' : Location} (h : L.LocationRel Γ l l') {d d' : Dialect}
    (hd : L.Speaks d d') (type : Option JsonType) [ht : L.Extracts type] :
    L.Rel Γ (l.scalar d type) (l'.scalar d' type) := by
  have hdot := h.dotFragment
  obtain ⟨hf⟩ := h
  unfold Location.scalar
  dsimp only
  split
  · exact rel_jsonQuery hf
  · split
    · exact rel_append hdot (ht.rel_method Γ)
    · exact rel_jsonValue hd hf

/-- The element of a row is read from the columns of expanded arrays. -/
lemma sees_element {label : String} (h : elementSource label ∈ Γ.sources) {column : String}
    (hc : column ∈ elementNames) : Γ.Sees label column :=
  ⟨elementSource label, h, rfl, hc⟩

lemma rel_elementValue {d d' : Dialect} (hd : L.Speaks d d') {source : String} {path : Option Path}
    {type : Option JsonType} (h : elementSource source ∈ Γ.sources) :
    L.Rel Γ (elementValue d source path type) (elementValue d' source path type) := by
  unfold elementValue
  split
  · exact rel_jsonValue hd (rel_column (sees_element h (by decide)))
  · split
    · exact rel_column (sees_element h (by decide))
    · exact rel_column (sees_element h (by decide))
    · exact rel_column (sees_element h (by decide))

/-! ## Fields -/

variable (L) in
/-- May the node read what it refers to? -/
def Views (e : Expr) : Prop :=
  ∀ x ∈ e.reference?, L.Visible x

/-- An expression that is a field reads it. -/
lemma Views.field {e : Expr} {f : FieldPath} (h : L.Views e) (hf : e.field? = some f) :
    L.Visible (.field f.path) := by
  unfold Expr.field? at hf
  split at hf
  · exact h _ (congrArg (some ∘ Reference.field ∘ FieldPath.path) (Option.some.inj hf))
  · cases hf

/-- A variable for the document reads a field of it. -/
lemma Views.varField {name : String} {p : Path} (h : L.Views (.var name (some p)))
    (hname : Expr.isDocumentVar name = true) : L.Visible (.field p) :=
  h _ (by simp [Expr.reference?, hname])

/-- A variable for the document reads it. -/
lemma Views.varDocument {name : String} (h : L.Views (.var name none))
    (hname : Expr.isDocumentVar name = true) : L.Visible .wholeDocument :=
  h _ (by simp [Expr.reference?, hname])

section Env

variable {data : String} {env env' : Env} (h : L.EnvRel data (some Γ) env env')

include h

lemma EnvRel.resolve {path : Path} (hv : L.Visible (.field path)) :
    L.ResolvedRel Γ (env.resolve path) (env'.resolve path) :=
  (h.scope Γ rfl).resolve hv

lemma EnvRel.document (hv : L.Visible .wholeDocument) : L.Rel Γ env.document env'.document :=
  (h.scope Γ rfl).document hv h.speaks

/-- Related answers are written in related ways. -/
lemma EnvRel.fieldValue {path : Path}
    (hr : L.ResolvedRel Γ (env.resolve path) (env'.resolve path)) (type : Option JsonType)
    [L.Extracts type] : L.Rel Γ (env.fieldValue path type) (env'.fieldValue path type) := by
  unfold Env.fieldValue
  generalize env.resolve path = r, env'.resolve path = r' at hr
  cases hr with
  | value hf =>
    dsimp only
    split
    · exact hf
    · exact hf
    · split
      · exact rel_jsonValue h.speaks hf
      · exact hf
  | place hl => exact hl.scalar h.speaks type
  | missing => exact rel_null

lemma EnvRel.fieldJson {path : Path}
    (hr : L.ResolvedRel Γ (env.resolve path) (env'.resolve path)) :
    L.JsonRel Γ (env.fieldJson path) (env'.fieldJson path) := by
  unfold Env.fieldJson
  rw [(L.features h.speaks).jsonType]
  generalize env.resolve path = r, env'.resolve path = r' at hr
  cases hr with
  | value hf => exact ⟨hf, rfl⟩
  | place hl =>
    have hdot := hl.dotFragment
    obtain ⟨hf⟩ := hl
    dsimp only
    split
    · exact ⟨hdot, rfl⟩
    · split
      · exact ⟨hf, rfl⟩
      · exact ⟨rel_jsonQuery hf, rfl⟩
  | missing => exact ⟨rel_null, rfl⟩

omit h in
lemma ResolvedRel.fieldSource {path : Path}
    (hr : L.ResolvedRel Γ (env.resolve path) (env'.resolve path)) :
    L.ArrayRel Γ (env.fieldSource path) (env'.fieldSource path) := by
  unfold Env.fieldSource
  generalize env.resolve path = r, env'.resolve path = r' at hr
  cases hr with
  | value hf => exact .mk hf
  | place hl =>
    obtain ⟨hf⟩ := hl
    exact .mk hf
  | missing => exact .mk rel_null

omit h in
/-- Both fields have a place, on the same path, or neither has. -/
lemma ResolvedRel.location {path : Path}
    (hr : L.ResolvedRel Γ (env.resolve path) (env'.resolve path)) :
    L.PlaceRel Γ (env.location? path) (env'.location? path) := by
  unfold Env.location?
  generalize env.resolve path = r, env'.resolve path = r' at hr
  cases hr with
  | @value f g json hf =>
    cases json with
    | false => exact .none
    | true => exact .some hf
  | place hl =>
    obtain ⟨hf⟩ := hl
    exact .some hf
  | missing => exact .none

lemma EnvRel.element (name : String) : env.element? name = env'.element? name := by
  unfold Env.element?
  rw [h.elements]

/-- The rows of an element variable are in sight. -/
lemma EnvRel.sees_source {name source : String} (he : env.element? name = some source) :
    elementSource source ∈ Γ.sources := by
  obtain ⟨before, after, heq, _⟩ := List.lookup_eq_some_iff.1 he
  have mem : (name, source) ∈ env.elements := by
    rw [heq]
    exact List.mem_append_right _ List.mem_cons_self
  obtain ⟨_, ⟨⟩, hs⟩ := h.sees_elements _ mem
  exact hs

end Env

end FragmentLogic

namespace RenderLogic

variable {L : RenderLogic} {Γ : Ctx}

/-! ## Variables -/

lemma constantVar_rel {name : String} {f : Fragment} (h : constantVar? name = some f) :
    L.Rel Γ f f := by
  unfold constantVar? at h
  split at h <;> cases h <;> mono

lemma run_variableValue {name : String} {path : Option Path} (h : L.Views (.var name path))
    (type : Option JsonType) [L.Extracts type] :
    L.Keeps (some Γ) (L.Rel Γ) (variableValue name path type) := by
  unfold variableValue
  refine L.bind L.read fun env env' henv => ?_
  rw [← henv.element]
  split
  · next source hs =>
    exact L.pure (FragmentLogic.rel_elementValue henv.speaks (henv.sees_source hs))
  · split
    · next hname =>
      cases path with
      | none => exact L.pure (henv.document (h.varDocument hname))
      | some p => exact L.pure (henv.fieldValue (henv.resolve (h.varField hname)) type)
    · split
      · next f hf => exact L.pure (constantVar_rel hf)
      · exact run_unsupported _

lemma run_variableJson {name : String} {path : Option Path} (h : L.Views (.var name path)) :
    L.Keeps (some Γ) (L.JsonRel Γ) (variableJson name path) := by
  unfold variableJson
  refine L.bind L.read fun env env' henv => ?_
  rw [← henv.element]
  split
  · next source hs =>
    have hv : L.Rel Γ (Fragment.column source valueColumn) (Fragment.column source valueColumn) :=
      FragmentLogic.rel_column (FragmentLogic.sees_element (henv.sees_source hs) (by decide))
    cases path with
    | none => exact L.pure ⟨hv, rfl⟩
    | some p => exact L.pure ⟨FragmentLogic.rel_jsonQuery hv, rfl⟩
  · split
    · next hname =>
      cases path with
      | none => exact L.pure ⟨henv.document (h.varDocument hname), rfl⟩
      | some p => exact L.pure (henv.fieldJson (henv.resolve (h.varField hname)))
    · exact L.bind (run_variableValue h none) fun f g hfg => L.pure ⟨hfg, rfl⟩

lemma run_variableSource {name : String} {path : Option Path} (h : L.Views (.var name path)) :
    L.Keeps (some Γ) (L.ArrayRel Γ) (variableSource name path) := by
  have whole : L.Keeps (some Γ) (L.ArrayRel Γ) (do return .ofValue (← variableJson name path).1) :=
    L.bind (run_variableJson h) fun a b hab => L.pure (.mk hab.1)
  unfold variableSource
  refine L.bind L.read fun env env' henv => ?_
  rw [← henv.element]
  split
  · next source hs =>
    exact L.pure (.mk (FragmentLogic.rel_column
      (FragmentLogic.sees_element (henv.sees_source hs) (by decide))))
  · cases path with
    | none => exact whole
    | some p =>
      exact run_ite (fun hname => L.pure (henv.resolve (h.varField hname)).fieldSource)
        fun _ => whole

end RenderLogic

end PipelineSql
