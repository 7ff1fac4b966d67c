import PipelineSql.Proofs.Confinement
import PipelineSql.Proofs.Conjuncts
import PipelineSql.Proofs.Grouping

/-!
# Values have no joints

The text of a value has no `AND`, `OR` or `NOT` outside all brackets, whatever expression it is of:
joints stand in conditions, and a condition within a value stands between `CASE` and `END` or in a
subquery. A row holds the texts of fields that were computed before, so this needs it of them.
-/

namespace PipelineSql

open Fragment

lemma unjoined_text_of_isPlainWord {name : String} (h : isPlainWord name = true) :
    (text name).Unjoined := by
  rw [isPlainWord, Bool.and_eq_true_iff, Bool.and_eq_true_iff] at h
  obtain ⟨⟨hne, hword⟩, hnone⟩ := h
  have hlexemes : (text name).lexemes = [.word name.toList] := by
    rw [text, lexemes_singleton, Piece.lexemes, Lexeme.ofChars_word hword, Lexeme.ofWord,
      List.nil_append, Option.isNone_iff_eq_none.1 hnone, if_neg]
    · rfl
    · intro hnil
      rw [hnil] at hne
      cases hne
  rw [Unjoined, Jointless, hlexemes]
  exact ⟨rfl, rfl⟩

/-- What is one piece has no joints. -/
lemma Fragment.Compact.unjoined {f : Fragment} (h : f.Compact) : f.Unjoined := by
  cases h with
  | @token t ht =>
    rw [Unjoined, Jointless, lexemes_singleton]
    cases t with
    | text | newline | indent => cases ht
    | _ => exact ⟨rfl, rfl⟩
  | round => exact unjoined_paren _
  | cases =>
    rw [Unjoined, Jointless, lexemes_singleton, Piece.lexemes]
    exact ⟨rfl, rfl⟩
  | call hname => exact (unjoined_text_of_isPlainWord hname).append (unjoined_paren _).2

/-! ## Rows -/

/-- None of the texts that a row holds has joints. -/
def Scope.Unjoined (s : Scope) : Prop :=
  ∀ f ∈ s.texts, f.Unjoined

/-- What a path leads to has no joints. -/
def Resolved.Unjoined (r : Resolved) : Prop :=
  ∀ f ∈ r.texts, f.Unjoined

lemma unjoined_column (source name : String) : (column source name).Unjoined :=
  compact_column.unjoined

lemma unjoined_positionOf (source : String) : (positionOf source).Unjoined :=
  (unjoined_column _ _).append (by decide)

lemma unjoined_resolveIn {name path : Path} {value : Fragment} {json : Bool} {r : Resolved}
    (hvalue : value.Unjoined) (h : resolveIn name value json path = some r) : r.Unjoined := by
  unfold resolveIn at h
  split at h
  · cases h
    exact List.forall_mem_singleton.2 hvalue
  · obtain ⟨rest, -, ⟨⟩⟩ := Option.map_eq_some_iff.1 h
    exact List.forall_mem_singleton.2 hvalue

lemma Found.unjoined_resolve? {found : Found} {path : Path} {r : Resolved}
    (h : found.resolve? path = some r) : r.Unjoined := by
  unfold Found.resolve? at h
  split at h
  · cases h
    exact List.forall_mem_singleton.2 (unjoined_column _ _)
  · obtain ⟨rest, -, ⟨⟩⟩ := Option.map_eq_some_iff.1 h
    exact List.forall_mem_singleton.2 (unjoined_column _ _)

lemma Unwound.unjoined_resolve? {u : Unwound} {path : Path} {r : Resolved}
    (h : u.resolve? path = some r) : r.Unjoined := by
  unfold Unwound.resolve? at h
  split at h
  · cases h
    exact List.forall_mem_singleton.2 (unjoined_positionOf _)
  · split at h
    · cases h
      exact List.forall_mem_singleton.2 (unjoined_column _ _)
    · obtain ⟨rest, -, ⟨⟩⟩ := Option.map_eq_some_iff.1 h
      exact List.forall_mem_singleton.2 (unjoined_column _ _)

lemma Column.unjoined_resolve? {c : Column} {path : Path} {r : Resolved}
    (hc : ∀ f ∈ c.texts, f.Unjoined) (h : c.resolve? false path = some r) : r.Unjoined := by
  refine unjoined_resolveIn ?_ h
  unfold Column.texts at hc
  split
  · exact unjoined_column _ _
  · next value hvalue =>
    rw [hvalue] at hc
    exact hc _ List.mem_cons_self

lemma DocSource.unjoined_fragment {doc : DocSource} (h : ∀ f ∈ doc.texts, f.Unjoined) :
    doc.fragment.Unjoined := by
  cases doc with
  | column source name => exact unjoined_column _ _
  | computed value => exact h value List.mem_cons_self

lemma DocSource.unjoined_resolve {doc : DocSource} (h : ∀ f ∈ doc.texts, f.Unjoined) (path : Path) :
    (doc.resolve path).Unjoined := by
  cases doc with
  | column source name => exact List.forall_mem_singleton.2 (unjoined_fragment h)
  | computed value => exact List.forall_mem_singleton.2 (unjoined_fragment h)

namespace Scope

variable {s : Scope}

lemma Unjoined.doc (h : s.Unjoined) {doc : DocSource} (hdoc : s.doc = some doc) :
    ∀ f ∈ doc.texts, f.Unjoined := by
  intro f hf
  refine h f (List.mem_append_left _ (List.mem_append_left _ ?_))
  rw [hdoc]
  exact List.mem_flatMap.2 ⟨doc, List.mem_cons_self, hf⟩

lemma Unjoined.column (h : s.Unjoined) {c : Column} (hc : c ∈ s.columns) :
    ∀ f ∈ c.texts, f.Unjoined := by
  intro f hf
  exact h f (List.mem_append_left _ (List.mem_append_right _ (List.mem_flatMap.2 ⟨c, hc, hf⟩)))

lemma Unjoined.computed (h : s.Unjoined) {c : Computed} (hc : c ∈ s.computed) :
    c.value.Unjoined :=
  h _ (List.mem_append_right _ (List.mem_map_of_mem hc))

lemma Unjoined.intro (hdoc : ∀ doc, s.doc = some doc → ∀ f ∈ doc.texts, f.Unjoined)
    (hcolumns : ∀ c ∈ s.columns, ∀ f ∈ c.texts, f.Unjoined)
    (hcomputed : ∀ c ∈ s.computed, c.value.Unjoined) : s.Unjoined := by
  intro f hf
  rcases List.mem_append.1 hf with hf | hf
  · rcases List.mem_append.1 hf with hf | hf
    · obtain ⟨doc, hmem, hf⟩ := List.mem_flatMap.1 hf
      exact hdoc doc (Option.mem_toList.1 hmem) f hf
    · obtain ⟨c, hc, hf⟩ := List.mem_flatMap.1 hf
      exact hcolumns c hc f hf
  · obtain ⟨c, hc, rfl⟩ := List.mem_map.1 hf
    exact hcomputed c hc

/-- A path leads to a column of a row source or to a text of the row. -/
lemma Unjoined.resolve (h : s.Unjoined) (path : Path) : (s.resolve path false).Unjoined := by
  unfold Scope.resolve
  dsimp only
  split
  · next r hr =>
    simp only [Option.orElse_eq_orElse, Option.orElse_eq_or, Option.or_eq_some_iff] at hr
    rcases hr with hr | ⟨-, hr | ⟨-, hr | ⟨-, hr⟩⟩⟩
    · obtain ⟨c, hc, hr⟩ := List.exists_of_findSome?_eq_some hr
      exact unjoined_resolveIn (h.computed (List.mem_reverse.1 hc)) hr
    · obtain ⟨l, -, hr⟩ := List.exists_of_findSome?_eq_some hr
      exact Found.unjoined_resolve? hr
    · obtain ⟨u, -, hr⟩ := List.exists_of_findSome?_eq_some hr
      exact Unwound.unjoined_resolve? hr
    · obtain ⟨c, hc, hr⟩ := List.exists_of_findSome?_eq_some hr
      exact Column.unjoined_resolve? (h.column (List.mem_reverse.1 hc)) hr
  · next doc _ hdoc => exact DocSource.unjoined_resolve (h.doc hdoc) path
  · exact List.forall_mem_nil _

/-- The row as one document is a call, or the document itself. -/
lemma Unjoined.documentValue (h : s.Unjoined) (d : Dialect) : (s.documentValue d).Unjoined := by
  unfold Scope.documentValue
  split
  · exact compact_object.unjoined
  · next doc hdoc =>
    unfold Scope.merged
    split
    · exact DocSource.unjoined_fragment (h.doc hdoc)
    · split
      · exact (compact_call rfl).unjoined
      · exact (compact_call rfl).unjoined

end Scope

lemma unjoined_dotFragment {l : Location} (h : l.doc.Unjoined) : l.dotFragment.Unjoined := by
  have hsteps (steps : List String) (f : Fragment) (hf : f.Unjoined) :
      (f ++ (steps.map fun s => Fragment.ofToken (.step s)).flatten).Unjoined := by
    induction steps generalizing f with
    | nil => simpa using hf
    | cons s steps ih =>
      rw [List.map_cons, List.flatten_cons, ← List.append_assoc]
      exact ih _ (hf.append (Compact.token rfl).unjoined.2)
  exact hsteps l.steps l.doc h

lemma jointless_itemMethod (type : JsonType) : (text (itemMethod type)).Jointless := by
  cases type with
  | varchar | number | date | timestamp | boolean | json => decide

namespace Env

variable {env : Env} {path : Path}

lemma unjoined_of_value {f : Fragment} {json : Bool} (h : env.scope.Unjoined)
    (hf : env.resolve path = .value f json) : f.Unjoined := by
  have hpath := h.resolve path
  rw [resolve] at hf
  rw [hf] at hpath
  exact hpath f List.mem_cons_self

lemma unjoined_of_place {l : Location} (h : env.scope.Unjoined)
    (hl : env.resolve path = .place l) : l.doc.Unjoined := by
  have hpath := h.resolve path
  rw [resolve] at hl
  rw [hl] at hpath
  exact hpath l.doc List.mem_cons_self

lemma unjoined_fieldValue (h : env.scope.Unjoined) (path : Path) (type : Option JsonType) :
    (env.fieldValue path type).Unjoined := by
  unfold fieldValue
  split
  · next f json hf =>
    have hvalue := unjoined_of_value h hf
    split
    · exact hvalue
    · exact hvalue
    · split
      · exact compact_jsonValue.unjoined
      · exact hvalue
  · next l hl =>
    unfold Location.scalar
    split
    · exact compact_jsonQuery.unjoined
    · split
      · have hdoc := unjoined_of_place h hl
        exact (unjoined_dotFragment hdoc).append (jointless_itemMethod _)
      · exact compact_jsonValue.unjoined
  · exact (Compact.token rfl).unjoined

lemma unjoined_fieldJson (h : env.scope.Unjoined) (path : Path) :
    (env.fieldJson path).1.Unjoined := by
  unfold fieldJson
  split
  · next f json hf => exact unjoined_of_value h hf
  · next l hl =>
    have hdoc := unjoined_of_place h hl
    split
    · exact unjoined_dotFragment hdoc
    · split
      · exact hdoc
      · exact compact_jsonQuery.unjoined
  · exact (Compact.token rfl).unjoined

end Env

/-! ## Expressions -/

namespace Render

variable {env : Env} {P : Fragment → Prop}

lemma Yields.unjoined {r : Render Fragment} (h : r.Yields env Compact) : r.Yields env Unjoined :=
  h.imp fun _ => Compact.unjoined

lemma yields_unjoined_variableValue (h : env.scope.Unjoined) {name : String} {path : Option Path}
    {type : Option JsonType} : (variableValue name path type).Yields env Unjoined := by
  unfold variableValue
  refine yields_read ?_
  split
  · exact yields_pure compact_elementValue.unjoined
  · split
    · split
      · exact yields_pure (env.unjoined_fieldValue h _ _)
      · exact yields_pure (h.documentValue _)
    · split
      · next hf =>
        refine yields_pure ?_
        unfold constantVar? at hf
        split at hf
        all_goals cases hf
        all_goals decide
      · exact yields_unsupported _

lemma yields_unjoined_variableJson (h : env.scope.Unjoined) {name : String} {path : Option Path} :
    (variableJson name path).Yields env fun x => x.1.Unjoined := by
  unfold variableJson
  refine yields_read ?_
  split
  · split
    · exact yields_pure (unjoined_column _ _)
    · exact yields_pure compact_jsonQuery.unjoined
  · split
    · split
      · exact yields_pure (env.unjoined_fieldJson h _)
      · exact yields_pure (h.documentValue _)
    · exact yields_bind (yields_unjoined_variableValue h) fun f hf => yields_pure hf

/-- A concatenation joins its parts, or chooses by cases. -/
lemma yields_unjoined_concatenation {args : List Reading} (hne : args ≠ [])
    (h : ∀ r ∈ args, r.scalar.Yields env Unjoined) :
    (concatenation args).Yields env Unjoined := by
  unfold concatenation
  refine yields_bind (yields_mapM_forall h) fun parts hparts => ?_
  dsimp only
  split
  · refine yields_pure ?_
    cases parts with
    | nil => exact absurd (List.length_eq_zero_iff.1 hparts.1.symm) hne
    | cons f fs => exact Unjoined.joined (by decide) hparts.2
  · exact yields_pure Compact.cases.unjoined

lemma yields_unjoined_textPosition {s part : Reading} {start stop : Option Reading} :
    (textPosition s part start stop).Yields env Unjoined := by
  refine yields_then fun t => yields_then fun p => ?_
  split
  · exact yields_pure ((compact_call rfl).unjoined.append (by decide))
  · exact yields_then fun _ => yields_pure ((compact_call rfl).unjoined.append (by decide))

lemma yields_unjoined_text {op : TextOp} {args : List Reading} (hne : args ≠ [])
    (h : ∀ r ∈ args, r.scalar.Yields env Unjoined) : (Render.text op args).Yields env Unjoined := by
  by_cases hconcat : op = .concat
  · subst hconcat
    exact yields_unjoined_concatenation hne h
  · by_cases hindex : op = .indexOf
    · subst hindex
      match args with
      | [] | [_] => exact yields_fault _
      | t :: part :: rest => exact yields_unjoined_textPosition
    · exact (yields_compact_text hconcat hindex).unjoined

lemma yields_unjoined_datePart {part : DatePart} {arg : Reading} :
    (datePart part arg).Yields env Unjoined := by
  unfold datePart
  refine yields_then fun t => ?_
  split
  · exact yields_pure compact_extracted.unjoined
  · exact (yields_compact_call rfl).unjoined
  · exact (yields_compact_call rfl).unjoined
  · exact yields_pure ((compact_call rfl).unjoined.append (by decide))
  · exact (yields_compact_call rfl).unjoined

lemma unjoined_cast {d : Dialect} {target : Conversion} {f g : Fragment} (hf : f.Unjoined)
    (h : cast d target f = .ok g) : g.Unjoined := by
  have hcast := compact_cast h
  split at hcast
  · exact hcast ▸ hf
  · exact hcast.unjoined

lemma yields_unjoined_conversion {op : Conversion} {arg : Reading} {target : Option Conversion}
    {onError onNull : Option Reading} (h : arg.scalar.Yields env Unjoined) :
    (conversion op arg target onError onNull).Yields env Unjoined := by
  unfold conversion
  split
  · unfold converted
    split
    · exact yields_fault _
    · refine yields_bind h fun f hf => yields_read ?_
      refine yields_bind (yields_lift fun g hg => unjoined_cast hf hg) fun g hg => ?_
      refine yields_ite (fun _ => yields_pure hg) fun _ => yields_then fun _ => ?_
      dsimp only
      split
      · exact yields_then fun _ => yields_pure Compact.cases.unjoined
      · exact yields_then fun _ => yields_pure Compact.cases.unjoined
  · exact yields_compact_typeName.unjoined
  · exact yields_bind h fun f hf => yields_read (yields_lift fun g hg => unjoined_cast hf hg)

/-- Documents are merged by calls, and one is left as it is. -/
lemma yields_unjoined_mergedDocuments {args : List Reading}
    (h : ∀ r ∈ args, r.json.Yields env fun x => x.1.Unjoined) :
    (mergedDocuments args).Yields env Unjoined := by
  have hmerges (rest : List (Fragment × Bool)) (first : Fragment) (hfirst : first.Unjoined) :
      (rest.foldl (fun acc next => call "JSON_MERGEPATCH" [acc, next.1]) first).Unjoined := by
    induction rest generalizing first with
    | nil => exact hfirst
    | cons next rest ih => exact ih _ (compact_call rfl).unjoined
  unfold mergedDocuments
  refine yields_bind (yields_mapM_forall h) fun parts hparts => ?_
  split
  · exact yields_fault _
  · next first _ rest =>
    exact yields_pure (hmerges rest first (hparts.2 _ List.mem_cons_self))

lemma yields_unjoined_object {op : ObjectOp} {args : List Reading}
    (h : ∀ r ∈ args, r.json.Yields env fun x => x.1.Unjoined) :
    (Render.object op args).Yields env Unjoined := by
  unfold Render.object
  split
  · exact yields_unjoined_mergedDocuments h
  · exact yields_unsupported _
  · exact yields_compact_documentOfPairs.unjoined
  · exact yields_fault _

lemma yields_unjoined_ofLiteral (l : Literal) (m : Manner) :
    (m.text (Reading.ofLiteral l)).Yields env Unjoined := by
  refine yields_ofValue (e := .lit l) [] m fun _ => ?_
  split
  · exact yields_pure compact_literal.unjoined
  · exact yields_compact_literal.unjoined

/-- A condition is written by cases. -/
lemma yields_unjoined_ofCondition {e : Expr} {c : Render Condition} (m : Manner) :
    (m.text (Reading.ofCondition e c)).Yields env Unjoined :=
  yields_ofValue [] m fun _ => yields_then fun _ => yields_then fun _ =>
    yields_pure Compact.cases.unjoined

/-- An operation on text has arguments. -/
lemma args_ne_nil {op : TextOp} {args : List Expr} (h : (Expr.text op args).checkShape = .ok ()) :
    args ≠ [] := by
  rintro rfl
  cases op <;> cases h

/-- The text of an expression has no joints, in whatever manner it is asked for. Three operators
write an operand as it is, and there the induction goes on: concatenation, the conversion to an
object id and the merge of documents. -/
lemma yields_unjoined (h : env.scope.Unjoined) (e : Expr) (m : Manner) :
    (m.text (Reading.ofExpr e)).Yields env Unjoined := by
  -- Concatenations, conversions and merged documents may show an operand outside all brackets, so
  -- these need it of their operands. The others put their operands away.
  cases e with
  | field f =>
    rw [Reading.ofExpr]
    cases m with
    | scalar type =>
      refine yields_then fun _ => yields_read (yields_pure ?_)
      exact env.unjoined_fieldValue h _ _
    | json =>
      refine yields_bind (P := fun x => x.1.Unjoined) ?_ fun x hx => yields_pure hx
      exact yields_read (yields_pure (env.unjoined_fieldJson h _))
  | var name path =>
    rw [Reading.ofExpr]
    cases m with
    | scalar type => exact yields_then fun _ => yields_unjoined_variableValue h
    | json => exact yields_bind (yields_unjoined_variableJson h) fun x hx => yields_pure hx
  | lit l =>
    rw [Reading.ofExpr]
    exact yields_unjoined_ofLiteral l m
  | compare op left right =>
    rw [Reading.ofExpr]
    exact yields_unjoined_ofCondition m
  | logic op operands =>
    rw [Reading.ofExpr]
    exact yields_unjoined_ofCondition m
  | arith op operands =>
    rw [Reading.ofExpr]
    exact yields_ofValue _ m fun _ => yields_compact_arithmetic.unjoined
  | array op input index args var =>
    rw [Reading.ofExpr]
    unfold Reading.ofArray
    split
    · exact yields_unjoined_ofCondition m
    · exact yields_ofValue [] m fun _ => yields_compact_arrayValue.unjoined
  | text op args =>
    rw [Reading.ofExpr]
    unfold Reading.ofText
    split
    · exact yields_unjoined_ofCondition m
    · exact yields_unjoined_ofCondition m
    · refine yields_ofValue_checked _ m fun hcheck _ => yields_unjoined_text ?_ ?_
      · rw [Reading.ofExprs_eq_map]
        exact fun hnil => args_ne_nil hcheck (List.map_eq_nil_iff.1 hnil)
      · intro r hr
        rw [Reading.ofExprs_eq_map] at hr
        obtain ⟨a, ha, rfl⟩ := List.mem_map.1 hr
        exact yields_unjoined h a (.scalar none)
  | date part arg =>
    rw [Reading.ofExpr]
    exact yields_ofValue [] m fun _ => yields_unjoined_datePart
  | cond test yes no =>
    rw [Reading.ofExpr]
    exact yields_ofValue [] m fun _ => yields_then fun _ => yields_then fun _ =>
      yields_pure Compact.cases.unjoined
  | ifNull args =>
    rw [Reading.ofExpr]
    exact yields_ofValue [] m fun _ => yields_then fun _ => (yields_compact_call rfl).unjoined
  | switch branches default =>
    rw [Reading.ofExpr]
    refine yields_ofValue [] m fun type => yields_then fun _ => ?_
    split
    · exact yields_pure Compact.cases.unjoined
    · exact yields_then fun _ => yields_pure Compact.cases.unjoined
  | accumulate op arg =>
    rw [Reading.ofExpr]
    exact yields_ofValue [] m fun _ => yields_compact_overArray.unjoined
  | compoundId fields =>
    rw [Reading.ofExpr]
    exact yields_ofValue [] m fun _ => yields_compact_document.unjoined
  | convert op arg target onError onNull =>
    rw [Reading.ofExpr]
    unfold Reading.ofConversion
    split
    · exact yields_unjoined_ofCondition m
    · refine yields_ofValue [] m fun _ => yields_unjoined_conversion ?_
      exact yields_unjoined h arg (.scalar none)
  | lookupSize source localField foreignField =>
    rw [Reading.ofExpr]
    exact yields_ofValue [] m fun _ => yields_then fun _ => yields_compact_lookupSize.unjoined
  | present f expected =>
    rw [Reading.ofExpr]
    exact yields_unjoined_ofCondition m
  | object op args =>
    rw [Reading.ofExpr]
    refine yields_ofValue [] m fun _ => yields_unjoined_object fun r hr => ?_
    rw [Reading.ofExprs_eq_map] at hr
    obtain ⟨a, ha, rfl⟩ := List.mem_map.1 hr
    exact yields_json (yields_unjoined h a .json)
  | document fields =>
    rw [Reading.ofExpr]
    exact yields_ofValue [] m fun _ => yields_compact_document.unjoined
termination_by sizeOf e
decreasing_by
  · have := List.sizeOf_lt_of_mem ha
    simp
    omega
  · simp
    omega
  · have := List.sizeOf_lt_of_mem ha
    simp
    omega

/-! ## Accumulators and window functions -/

lemma isPlainWord_extreme (greatest : Bool) :
    isPlainWord (if greatest then "MAX" else "MIN") = true := by
  cases greatest
  · rfl
  · rfl

lemma yields_unjoined_extreme {name : String} {greatest : Bool} {arg : Reading} {window : Fragment}
    (hwindow : window.Jointless) : (extreme name greatest arg window).Yields env Unjoined := by
  refine yields_read ?_
  split
  · refine yields_then fun f => yields_pure ?_
    exact (compact_call (isPlainWord_extreme greatest)).unjoined.append hwindow
  · exact yields_then fun _ => yields_then fun _ => yields_then fun _ =>
      yields_pure compact_mixedExtreme.unjoined

lemma yields_unjoined_summed {arg : Reading} : (summed arg).Yields env Unjoined := by
  unfold summed
  split
  · exact yields_pure (by decide)
  · refine yields_ite (fun _ => ?_) fun _ => yields_then fun _ => (yields_compact_call rfl).unjoined
    refine yields_bind yields_compact_literal fun f hf => yields_pure ?_
    exact Unjoined.append (by decide) hf.unjoined.2
  · exact yields_then fun _ => (yields_compact_call rfl).unjoined

lemma yields_unjoined_collected {arg : Reading} : (collected arg).Yields env Unjoined := by
  refine yields_then fun v => yields_pure ?_
  have hstring (s : String) : (Fragment.string s).Unjoined := (Compact.token rfl).unjoined
  have hlist (body : Fragment) : (Fragment.text "LISTAGG" ++ paren body).Unjoined :=
    (Compact.call rfl).unjoined
  exact ((((((hstring "[").append (by decide)).append (hlist _).2).append (by decide)).append
    (unjoined_paren _).2).append (by decide)).append (hstring "]").2

/-- An aggregate of a group has no joints. -/
lemma yields_unjoined_aggregate {op : Accumulator} {arg : Option Expr} :
    (Expr.aggregate op arg).Yields env fun x => x.1.Unjoined := by
  unfold Expr.aggregate Render.aggregate
  cases op with
  | count => exact yields_pure (by decide)
  | sum => exact yields_then fun r => yields_bind yields_unjoined_summed fun f hf => yields_pure hf
  | avg | stdDevPop | stdDevSamp =>
    exact yields_then fun r => yields_then fun f => yields_pure (compact_call rfl).unjoined
  | min | max =>
    refine yields_then fun r => ?_
    exact yields_bind (yields_unjoined_extreme (by decide)) fun f hf => yields_pure hf
  | first | last =>
    refine yields_then fun _ => yields_then fun r => yields_then fun f => yields_pure ?_
    exact (compact_call rfl).unjoined.append (by decide)
  | push => exact yields_then fun r => yields_then fun x => yields_pure (compact_call rfl).unjoined
  | addToSet =>
    refine yields_then fun _ => yields_then fun r => ?_
    exact yields_bind yields_unjoined_collected fun f hf => yields_pure hf

lemma jointless_overClause (out : WindowOutput) (partition : Fragment) (ordered : Bool) :
    (overClause out partition ordered).Jointless :=
  (Unjoined.append (by decide) (unjoined_paren _).2).2

lemma yields_unjoined_shifted {arg : Reading} {shift : Shift} {window : Fragment}
    (harg : arg.scalar.Yields env Unjoined) (hwindow : window.Jointless) :
    (shifted arg shift window).Yields env Unjoined := by
  have hname : isPlainWord (if 0 < shift.offset then "LEAD" else "LAG") = true := by
    split
    · rfl
    · rfl
  unfold shifted
  refine yields_bind harg fun f hf => yields_ite (fun _ => yields_pure hf) fun _ => ?_
  dsimp only
  refine yields_ite (fun _ => yields_pure ?_) fun _ => yields_then fun _ => yields_pure ?_
  · exact (compact_call hname).unjoined.append hwindow
  · exact (compact_call hname).unjoined.append hwindow

/-- A window function has no joints. -/
lemma yields_unjoined_windowFunction (h : env.scope.Unjoined) {out : WindowOutput}
    {partition : Fragment} {ordered : Bool} :
    (out.render partition ordered).Yields env Unjoined := by
  have hwindow := jointless_overClause out partition ordered
  have harg {r : Reading} (hr : Reading.ofOption out.arg = some r) :
      r.scalar.Yields env Unjoined := by
    cases hout : out.arg with
    | none =>
      rw [hout, Reading.ofOption] at hr
      cases hr
    | some e =>
      rw [hout, Reading.ofOption] at hr
      cases hr
      exact yields_unjoined h e (.scalar none)
  have hcall {name : String} {args : List Fragment} (hname : isPlainWord name = true) :
      (call name args ++ overClause out partition ordered).Unjoined :=
    (compact_call hname).unjoined.append hwindow
  unfold WindowOutput.render windowFunction
  dsimp only
  refine yields_ite (fun _ => ?_) fun _ => ?_
  · exact yields_bind (P := fun _ => False) (yields_fault _) fun _ hfalse => hfalse.elim
  split
  · exact yields_pure (Unjoined.append (by decide) hwindow)
  · exact yields_pure (Unjoined.append (by decide) hwindow)
  · exact yields_pure (Unjoined.append (by decide) hwindow)
  · exact yields_pure (Unjoined.append (by decide) hwindow)
  · exact yields_then fun _ => yields_then fun _ => yields_pure (hcall rfl)
  · exact yields_then fun _ => yields_then fun _ => yields_pure (hcall rfl)
  · exact yields_then fun _ => yields_then fun _ => yields_pure (hcall rfl)
  · exact yields_then fun _ => yields_then fun _ => yields_pure (hcall rfl)
  · exact yields_then fun _ => yields_unjoined_extreme hwindow
  · exact yields_then fun _ => yields_unjoined_extreme hwindow
  · exact yields_then fun _ => yields_then fun _ => yields_pure (hcall rfl)
  · exact yields_then fun _ => yields_then fun _ => yields_pure (hcall rfl)
  · split
    · exact yields_fault _
    · exact yields_argumentOf fun r hr => yields_unjoined_shifted (harg hr) hwindow
  · exact yields_unsupported _

end Render

end PipelineSql
