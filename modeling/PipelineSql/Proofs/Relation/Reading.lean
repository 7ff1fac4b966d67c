import PipelineSql.Proofs.Nesting
import PipelineSql.Proofs.Positions
import PipelineSql.Proofs.Relation.Place
import PipelineSql.Render.Arithmetic
import PipelineSql.Render.Comparison
import PipelineSql.Render.Document

/-!
# Related readings

A reading is sound for a logic if each way to write its expression is related to itself, whatever
the row looks like. Comparisons, arithmetic, documents and rows of elements are sound if their
operands are.
-/

namespace PipelineSql

namespace FragmentLogic

variable {L : FragmentLogic} {Γ : Ctx}

/-! ## Truth and choice -/

@[mono]
lemma rel_choice {d d' : Dialect} (hd : L.Speaks d d') {c c' : Condition} (h : L.Cond Γ c c') :
    L.Rel Γ (choice d c) (choice d' c') := by
  unfold choice
  exact rel_cases_some (.cons (branch_mk (rel_condition h) (rel_bool hd _)) .nil) (rel_bool hd _)

lemma forall₂_falseTexts : List.Forall₂ (L.Rel Γ) falseTexts falseTexts := by
  unfold falseTexts
  mono

@[mono]
lemma cond_truth {f g : Fragment} (h : L.Rel Γ f g) : L.Cond Γ (truth f) (truth g) := by
  have hfalse := forall₂_falseTexts (L := L) (Γ := Γ)
  have hlower : L.Rel Γ (Fragment.call "LOWER" [Fragment.call "TO_CHAR" [f]])
      (Fragment.call "LOWER" [Fragment.call "TO_CHAR" [g]]) :=
    rel_call₁ (rel_call₁ h)
  refine Cond.relation (rel_cases_some ?_ (rel_text _)) (rel_text _)
  refine .cons (branch_cond (.isNull h) (rel_text _)) ?_
  exact .cons (branch_cond (.among hlower hfalse) (rel_text _)) .nil

/-! ## Rows of elements -/

@[mono]
lemma rel_elementRows {d d' : Dialect} (hd : L.Speaks d d') {a a' : ArraySource} {label : String}
    (h : L.ArrayRel Γ a a') : L.Rel Γ (elementRows d a label) (elementRows d' a' label) := by
  obtain ⟨hf⟩ := h
  unfold elementRows elementTable
  rw [← (L.features hd).elementDefinition]
  refine rel_append (rel_append (rel_elementTable ?_ hf) (rel_text _)) (rel_ident _)
  exact ⟨rel_text _, rel_said hd d.says_elementDefinition, rel_text _, rel_text _⟩

/-- A column of the rows of elements, inside the subquery over them. -/
@[mono]
lemma rel_elementColumn {label column : String} (h : column ∈ elementNames) :
    L.Rel (Γ.inside (.rows [elementSource label])) (Fragment.column label column)
      (Fragment.column label column) :=
  rel_ownColumn h

/-- A subquery over elements is related if what it selects and what follows are, with the rows of
elements in sight. -/
lemma rel_overElements {d d' : Dialect} (hd : L.Speaks d d') {a a' : ArraySource} {label : String}
    {f f' g g' : Fragment} (h : L.ArrayRel Γ a a')
    (hf : L.Rel (Γ.inside (.rows [elementSource label])) f f')
    (hg : L.Rel (Γ.inside (.rows [elementSource label])) g g') :
    L.Rel Γ (overElements d a label f g) (overElements d' a' label f' g') := by
  have ha := h.mono (Γ.le_inside_rows [elementSource label])
  refine rel_subquery ?_ (by mono)
  simp [Bracket.Declared, Bracket.labels, elementSource, elementRows, Fragment.ident,
    Fragment.ofToken]

@[mono]
lemma rel_arrayOf {f f' g g' : Fragment} {json : Bool} (h : L.Rel Γ f f') (h' : L.Rel Γ g g') :
    L.Rel Γ (arrayOf f json g) (arrayOf f' json g') := by
  unfold arrayOf
  exact rel_append (rel_text _)
    (rel_paren (rel_append (rel_append (rel_formatted h) (rel_text _)) h'))

@[mono]
lemma rel_mixedExtreme {n n' t t' w w' : Fragment} {greatest : Bool} (hn : L.Rel Γ n n')
    (ht : L.Rel Γ t t') (hw : L.Rel Γ w w') :
    L.Rel Γ (mixedExtreme n t greatest w) (mixedExtreme n' t' greatest w') := by
  unfold mixedExtreme
  split
  · have htexts := rel_cases_none (.cons (branch_cond (.isNull hn) ht) .nil)
    refine rel_call₂ (rel_append (rel_call₁ htexts) hw) (rel_call₁ ?_)
    exact rel_append (rel_call₁ hn) hw
  · refine rel_call₂ (rel_call₁ ?_) (rel_append (rel_call₁ ht) hw)
    exact rel_append (rel_call₁ hn) hw

/-! ## Dates -/

@[mono]
lemma rel_extracted {part : String} [Common part] {f g : Fragment} (h : L.Rel Γ f g) :
    L.Rel Γ (Render.extracted part f) (Render.extracted part g) := by
  unfold Render.extracted
  exact rel_append (rel_text _) (rel_paren (rel_append (rel_append (rel_text _) (rel_text _)) h))

end FragmentLogic

namespace RenderLogic

variable (L : RenderLogic)

/-- What has to be known of a node: what it reads is visible, the collection whose documents it
counts is stored, scalars may be extracted as the type that it declares, and a checked sum may end
in an error if it has one that leaves the integers. -/
structure Admissible (n : Expr) : Prop where
  views : L.Views n
  stored : ∀ source ∈ n.table?, L.Stored source
  extracts : L.Extracts n.declared?
  sums : L.Checked → n.atLimit = true → L.Fails (.structural .overflow)

/-- Every way to write the expression is related to itself. -/
structure Reads (r : Reading) : Prop where
  expr : L.Admissible r.expr
  value : ∀ Γ type [L.Extracts type], L.Run (some Γ) (L.Rel Γ) (r.value type) (r.value type)
  condition : ∀ Γ, L.Run (some Γ) (L.Cond Γ) r.condition r.condition
  json : ∀ Γ, L.Run (some Γ) (L.JsonRel Γ) r.json r.json
  source : ∀ Γ, L.Run (some Γ) (L.ArrayRel Γ) r.source r.source
  operands : ∀ r' ∈ r.operands, ∀ Γ type [L.Extracts type],
    L.Run (some Γ) (L.Rel Γ) (r'.value type) (r'.value type)

variable {L} {Γ : Ctx}

open FragmentLogic

lemma Reads.number {r : Reading} (h : L.Reads r) (Γ : Ctx) : L.Keeps (some Γ) (L.Rel Γ) r.number :=
  h.value Γ (some .number)

lemma Reads.scalar {r : Reading} (h : L.Reads r) (Γ : Ctx) : L.Keeps (some Γ) (L.Rel Γ) r.scalar :=
  h.value Γ none

/-- The check of a shape yields the same error, or what follows knows the shape. -/
lemma run_checkShape {α : Type} {A : α → α → Prop} {row : Option Ctx} {e : Expr}
    {r r' : Render α} (h : e.checkShape = .ok () → L.Run row A r r') :
    L.Run row A (do e.checkShape; r) (do e.checkShape; r') :=
  L.bind run_result fun _ _ hshape => h hshape.2

/-- A reading that must be there. -/
lemma run_required {α : Type} {A : α → α → Prop} {row : Option Ctx} {x : Result Reading}
    [x.Ordinary] {k k' : Reading → Render α} (hx : ∀ r, x = .ok r → L.Reads r)
    (hk : ∀ r, L.Reads r → L.Run row A (k r) (k' r)) :
    L.Run row A (liftM x >>= k) (liftM x >>= k') := by
  refine L.bind run_result ?_
  rintro r _ ⟨rfl, hr⟩
  exact hk r (hx r hr)

/-- A value as JSON. -/
lemma run_asJson {v : Render Fragment} {json : Bool} (h : L.Keeps (some Γ) (L.Rel Γ) v) :
    L.Keeps (some Γ) (L.JsonRel Γ) (do return (← v, json)) :=
  L.bind h fun _ _ hfg => L.pure ⟨hfg, rfl⟩

/-- A condition as a value. -/
lemma run_choice {c : Render Condition} (h : L.Keeps (some Γ) (L.Cond Γ) c) :
    L.Keeps (some Γ) (L.Rel Γ) (do return choice (← read).dialect (← c)) := by
  refine L.bind L.read fun env env' henv => L.bind h fun c c' hcc => ?_
  exact L.pure (rel_choice henv.speaks hcc)

lemma reads_ofValue {e : Expr} {value : Option JsonType → Render Fragment}
    {operands : List Reading} (he : L.Admissible e)
    (h : e.checkShape = .ok () → ∀ Γ type [L.Extracts type],
      L.Keeps (some Γ) (L.Rel Γ) (value type))
    (ho : ∀ r ∈ operands, L.Reads r) : L.Reads (.ofValue e value operands) := by
  have hv : ∀ Γ type [L.Extracts type],
      L.Keeps (some Γ) (L.Rel Γ) (Render.captured do e.checkShape; value type) :=
    fun Γ type _ => L.captured (run_checkShape fun hshape => h hshape Γ type)
  exact {
    expr := he
    value := hv
    condition := fun Γ => L.bind (hv Γ none) fun f g hfg => L.pure (cond_truth hfg)
    json := fun Γ => run_asJson (hv Γ none)
    source := fun Γ => L.bind (run_asJson (hv Γ none)) fun a b hab => L.pure (.mk hab.1)
    operands := fun r hr => (ho r hr).value }

lemma reads_ofCondition {e : Expr} {condition : Render Condition} (he : L.Admissible e)
    (h : e.checkShape = .ok () → ∀ Γ, L.Keeps (some Γ) (L.Cond Γ) condition) :
    L.Reads (.ofCondition e condition) := by
  have hc : ∀ Γ, L.Keeps (some Γ) (L.Cond Γ) (do e.checkShape; condition) :=
    fun Γ => run_checkShape fun hshape => h hshape Γ
  have base : L.Reads (.ofValue e fun _ => _) :=
    reads_ofValue he (fun _ Γ _ _ => run_choice (hc Γ)) (by simp)
  exact { base with condition := hc }

/-! ## Rows of elements -/

lemma run_numberAggregate {function : String} [Common function] {array : Reading}
    (h : L.Reads array) : L.Keeps (some Γ) (L.Rel Γ) (Render.numberAggregate function array) := by
  unfold Render.numberAggregate
  refine L.bind (h.source Γ) fun a a' ha => run_alias fun label => ?_
  refine L.bind L.read fun env env' henv => L.pure ?_
  refine rel_overElements henv.speaks ha ?_ rel_nil
  mono
  decide

lemma run_elementExtreme {greatest : Bool} {array : Reading} (h : L.Reads array) :
    L.Keeps (some Γ) (L.Rel Γ) (Render.elementExtreme greatest array) := by
  unfold Render.elementExtreme
  refine run_warn (L.bind (h.source Γ) fun a a' ha => run_alias fun label => ?_)
  refine L.bind L.read fun env env' henv => L.pure ?_
  refine rel_overElements henv.speaks ha ?_ rel_nil
  mono <;> decide

end RenderLogic

end PipelineSql
