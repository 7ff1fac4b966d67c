import PipelineSql.Proofs.Delimited
import PipelineSql.Proofs.Relation.Expr
import Mathlib.Data.List.Induction

/-!
# Arithmetic and its grouping

Arithmetic writes its operands one after another in brackets, with the operator between them, and
leaves it to the precedence of SQL to group them. That works for operands that keep together. The
expressions whose text does not are listed here, exactly: wherever one of them is an operand, the
database groups the text in another way than the pipeline does.
-/

namespace PipelineSql

open Fragment

/-- How the text of an expression is asked for. -/
inductive Manner where
  | scalar (type : Option JsonType)
  | json

namespace Manner

/-- As an operand of arithmetic. -/
def number : Manner := .scalar (some .number)

/-- The text of an expression. -/
def text (m : Manner) (r : Reading) : Render Fragment :=
  match m with
  | .scalar type => r.value type
  | .json => do return (← r.json).1

/-- Is the text one that rendering the expression may give? -/
def Emits (m : Manner) (env : Env) (e : Expr) (f : Fragment) : Prop :=
  ∃ s s', ((m.text (Reading.ofExpr e)).run env).run s = .ok f s'

end Manner

/-! ## Rows -/

/-- Does a path stand for a text that does not keep together and is written as it is? An extraction
puts it into a call. -/
def Resolved.Exposed : Resolved → Manner → Prop
  | .value f json, .scalar (some type) => ¬f.Delimited ∧ (type = .json ∨ json = false)
  | .value f _, _ => ¬f.Delimited
  | .place l, .json => ¬l.doc.Delimited ∧ l.dotted = false ∧ l.steps = [] ∧ l.each = false
  | .place _, .scalar _ => False
  | .missing, _ => False

/-- Is the row a computed document that does not keep together, with nothing to put into it? -/
def Scope.Exposed (s : Scope) : Prop :=
  ∃ f, s.doc = some (.computed f) ∧ s.pending = [] ∧ ¬f.Delimited

/-- Only a stored column is read in dot notation. -/
def Resolved.DotsColumn (r : Resolved) : Prop :=
  ∀ l, r = .place l → l.dotted = true → l.doc.Delimited

lemma resolveIn_dotsColumn {name path : Path} {value : Fragment} {json : Bool} {r : Resolved}
    (h : resolveIn name value json path = some r) : r.DotsColumn := by
  unfold resolveIn at h
  rintro l rfl hl
  split at h
  · cases h
  · obtain ⟨rest, -, ⟨⟩⟩ := Option.map_eq_some_iff.1 h
    cases hl

lemma Found.resolve?_dotsColumn {found : Found} {path : Path} {r : Resolved}
    (h : found.resolve? path = some r) : r.DotsColumn := by
  unfold Found.resolve? at h
  rintro l rfl hl
  split at h
  · cases h
  · obtain ⟨rest, -, ⟨⟩⟩ := Option.map_eq_some_iff.1 h
    cases hl

lemma Unwound.resolve?_dotsColumn {u : Unwound} {path : Path} {r : Resolved}
    (h : u.resolve? path = some r) : r.DotsColumn := by
  unfold Unwound.resolve? at h
  rintro l rfl hl
  split at h
  · cases h
  · split at h
    · cases h
      cases hl
    · obtain ⟨rest, -, ⟨⟩⟩ := Option.map_eq_some_iff.1 h
      cases hl

lemma DocSource.resolve_dotsColumn (doc : DocSource) (path : Path) :
    (doc.resolve path).DotsColumn := by
  rintro l h hl
  cases doc with
  | column source name =>
    cases h
    exact delimited_column
  | computed f =>
    cases h
    cases hl

lemma Scope.resolve_dotsColumn (s : Scope) (path : Path) (orderBy : Bool) :
    (s.resolve path orderBy).DotsColumn := by
  have hbound {α : Type} {xs : List α} {resolve : α → Option Resolved} {r : Resolved}
      (h : xs.findSome? resolve = some r) (hr : ∀ a, resolve a = some r → r.DotsColumn) :
      r.DotsColumn := by
    obtain ⟨a, -, ha⟩ := List.exists_of_findSome?_eq_some h
    exact hr a ha
  unfold Scope.resolve
  dsimp only
  split
  · next r h =>
    simp only [Option.orElse_eq_orElse, Option.orElse_eq_or, Option.or_eq_some_iff] at h
    rcases h with h | ⟨-, h | ⟨-, h | ⟨-, h⟩⟩⟩
    · exact hbound h fun _ => resolveIn_dotsColumn
    · exact hbound h fun _ => Found.resolve?_dotsColumn
    · exact hbound h fun _ => Unwound.resolve?_dotsColumn
    · exact hbound h fun _ => resolveIn_dotsColumn
  · exact DocSource.resolve_dotsColumn _ _
  · exact fun _ h => nomatch h

lemma delimited_dotFragment {l : Location} (h : l.doc.Delimited) : l.dotFragment.Delimited := by
  refine delimited_append.2 ⟨h, ?_⟩
  induction l.steps with
  | nil => exact delimited_nil
  | cons s steps ih => exact delimited_append.2 ⟨rfl, ih⟩

lemma delimited_itemMethod {type : JsonType} : (Fragment.text (itemMethod type)).Delimited := by
  cases type <;> decide

namespace Env

variable (env : Env)

lemma delimited_fieldValue (path : Path) (type : Option JsonType) :
    (env.fieldValue path type).Delimited ↔ ¬(env.resolve path).Exposed (.scalar type) := by
  have hdots := env.scope.resolve_dotsColumn path false
  unfold fieldValue
  split
  · next f json h =>
    rw [h]
    cases type with
    | none => simp [Resolved.Exposed]
    | some t => cases t <;> cases json <;> simp [Resolved.Exposed]
  · next l h =>
    rw [h]
    refine iff_of_true ?_ id
    unfold Location.scalar
    split
    · exact delimited_jsonQuery
    · split
      · next hl =>
        have hdoc := hdots l h (Bool.and_eq_true_iff.1 hl).1
        exact delimited_append.2 ⟨delimited_dotFragment hdoc, delimited_itemMethod⟩
      · exact delimited_jsonValue
  · next h =>
    rw [h]
    exact iff_of_true delimited_null id

lemma delimited_fieldJson (path : Path) :
    (env.fieldJson path).1.Delimited ↔ ¬(env.resolve path).Exposed .json := by
  have hdots := env.scope.resolve_dotsColumn path false
  unfold fieldJson
  split
  · next f json h =>
    rw [h]
    simp [Resolved.Exposed]
  · next l h =>
    rw [h]
    split
    · next hl =>
      refine iff_of_true (delimited_dotFragment (hdots l h hl)) fun hexposed => ?_
      rw [hexposed.2.1] at hl
      cases hl
    · next hl =>
      split
      · next hplain => simp_all [Resolved.Exposed]
      · next hplain =>
        refine iff_of_true delimited_jsonQuery fun hexposed => hplain ?_
        simp [hexposed.2.2.1, hexposed.2.2.2]
  · next h =>
    rw [h]
    exact iff_of_true delimited_null id

lemma delimited_document : env.document.Delimited ↔ ¬env.scope.Exposed := by
  have hput (es : List Entry) (e : Entry) : Entry.put es e ≠ [] := by simp [Entry.put]
  have hdistinct (es : List Entry) : Entry.distinct es = [] ↔ es = [] := by
    induction es using List.reverseRecOn with
    | nil => simp [Entry.distinct]
    | append_singleton es e _ => simp [Entry.distinct, List.foldl_append, hput]
  unfold document Scope.documentValue
  split
  · next h =>
    refine iff_of_true delimited_object ?_
    rintro ⟨f, hf, _⟩
    simp [hf] at h
  · next doc h =>
    unfold Scope.merged
    split
    · next hpending =>
      rw [List.isEmpty_iff, hdistinct] at hpending
      cases doc with
      | column source name =>
        refine iff_of_true delimited_column ?_
        rintro ⟨f, hf, _⟩
        rw [h] at hf
        cases hf
      | computed f => simp [Scope.Exposed, h, hpending, DocSource.fragment]
    · next hpending =>
      rw [List.isEmpty_iff, hdistinct] at hpending
      refine iff_of_true ?_ ?_
      · split
        · exact delimited_call (by decide)
        · exact delimited_call (by decide)
      · rintro ⟨f, _, hf, _⟩
        exact hpending hf

end Env

/-! ## Expressions -/

/-- The expressions whose text has an operator outside all brackets. -/
inductive Exposed (env : Env) : Manner → Expr → Prop where
  | field {f type} :
    (env.resolve f.path).Exposed (.scalar (f.type.or type)) →
    Exposed env (.scalar type) (.field f)
  | fieldJson {f} :
    (env.resolve f.path).Exposed .json →
    Exposed env .json (.field f)
  /-- A field by way of the variable of the row. -/
  | variable {m name path} :
    env.element? name = none →
    Expr.isDocumentVar name = true →
    (env.resolve path).Exposed m →
    Exposed env m (.var name (some path))
  /-- The row itself. -/
  | row {m name} :
    env.element? name = none →
    Expr.isDocumentVar name = true →
    env.scope.Exposed →
    Exposed env m (.var name none)
  /-- `INSTR(…) - 1` -/
  | position {m args} :
    Exposed env m (.text .indexOf args)
  /-- `MOD(…) + 1` -/
  | dayOfWeek {m arg} :
    Exposed env m (.date .dayOfWeek arg)
  /-- `'a' || 'b'` -/
  | constants {m args} :
    2 ≤ args.length →
    (∀ a ∈ args, a.literal?.isSome) →
    Exposed env m (.text .concat args)
  /-- A conversion to an object id leaves its argument alone. -/
  | objectId {m arg target onError onNull} :
    Exposed env (.scalar none) arg →
    Exposed env m (.convert .toObjectId arg target onError onNull)
  | convert {m arg} :
    Exposed env (.scalar none) arg →
    Exposed env m (.convert .convert arg (some .toObjectId) none none)
  /-- One document is merged with nothing. -/
  | merge {m arg} :
    Exposed env .json arg →
    Exposed env m (.object .merge [arg])

namespace Render

variable {env : Env} {P : Fragment → Prop}

/-- The shape of an expression has been checked before its value is rendered. -/
lemma yields_checked {α : Type} {Q : α → Prop} {e : Expr} {r : Render α}
    (h : e.checkShape = .ok () → r.Yields env Q) :
    (do liftM e.checkShape; r : Render α).Yields env Q :=
  yields_bind (yields_lift fun _ hcheck => hcheck) fun _ => h

/-- The text of an expression that computes a value, in every manner. -/
lemma yields_ofValue_checked {e : Expr} {value : Option JsonType → Render Fragment}
    (operands : List Reading) (m : Manner)
    (h : e.checkShape = .ok () → ∀ type, (value type).Yields env P) :
    (m.text (Reading.ofValue e value operands)).Yields env P := by
  have hvalue (type : Option JsonType) :
      ((Reading.ofValue e value operands).value type).Yields env P :=
    yields_checked fun hcheck => h hcheck type
  cases m with
  | scalar type => exact hvalue type
  | json =>
    have hjson : (Reading.ofValue e value operands).json.Yields env fun x => P x.1 :=
      yields_bind (hvalue none) fun f hf => yields_pure hf
    exact yields_bind hjson fun x hx => yields_pure hx

lemma yields_ofValue {e : Expr} {value : Option JsonType → Render Fragment}
    (operands : List Reading) (m : Manner) (h : ∀ type, (value type).Yields env P) :
    (m.text (Reading.ofValue e value operands)).Yields env P :=
  yields_ofValue_checked operands m fun _ => h

/-- What is known of the text as JSON. -/
lemma yields_json {r : Reading} (h : (Manner.json.text r).Yields env P) :
    r.json.Yields env fun x => P x.1 := by
  intro s x s' hx
  apply h
  show ((r.json.run env) >>= fun x => pure x.1).run s = .ok x.1 s'
  simp only [EStateM.run, bind, EStateM.bind] at hx ⊢
  rw [hx]
  rfl

/-- A condition is written by cases. -/
lemma yields_ofCondition {e : Expr} {c : Render Condition} (m : Manner) :
    (m.text (Reading.ofCondition e c)).Yields env Delimited :=
  yields_ofValue [] m fun _ => yields_then fun _ => yields_then fun _ => yields_pure delimited_cases

lemma yields_ofField (f : FieldPath) (m : Manner) :
    (m.text (Reading.ofField f)).Yields env fun t => t.Delimited ↔ ¬Exposed env m (.field f) := by
  cases m with
  | scalar type =>
    refine yields_captured (yields_then fun _ => yields_read (yields_pure ?_))
    rw [env.delimited_fieldValue]
    exact not_congr ⟨.field, fun | .field h => h⟩
  | json =>
    refine yields_bind (yields_read (yields_pure (P := (· = env.fieldJson f.path)) rfl)) ?_
    rintro _ rfl
    refine yields_pure ?_
    rw [env.delimited_fieldJson]
    exact not_congr ⟨.fieldJson, fun | .fieldJson h => h⟩

lemma delimited_constantVar {name : String} {f : Fragment} (h : constantVar? name = some f) :
    f.Delimited := by
  unfold constantVar? at h
  split at h <;> cases h <;> decide

/-- A variable of the row is exposed if what it stands for is. -/
lemma exposed_var_iff {m : Manner} {name : String} {path : Option Path}
    (helement : env.element? name = none) (hname : Expr.isDocumentVar name = true) :
    Exposed env m (.var name path) ↔
      match path with
      | some p => (env.resolve p).Exposed m
      | none => env.scope.Exposed := by
  cases path with
  | some p => exact ⟨fun | .variable _ _ h => h, .variable helement hname⟩
  | none => exact ⟨fun | .row _ _ h => h, .row helement hname⟩

lemma not_exposed_element {m : Manner} {name source : String} {path : Option Path}
    (helement : env.element? name = some source) : ¬Exposed env m (.var name path) := by
  rintro (_ | _ | ⟨h, _, _⟩ | ⟨h, _, _⟩)
  · rw [helement] at h
    cases h
  · rw [helement] at h
    cases h

lemma not_exposed_constant {m : Manner} {name : String} {path : Option Path}
    (hname : ¬Expr.isDocumentVar name = true) : ¬Exposed env m (.var name path) := by
  rintro (_ | _ | ⟨_, h, _⟩ | ⟨_, h, _⟩)
  · exact hname h
  · exact hname h

lemma yields_variableValue {name : String} {path : Option Path} {type : Option JsonType} :
    (variableValue name path type).Yields env fun f =>
      f.Delimited ↔ ¬Exposed env (.scalar type) (.var name path) := by
  unfold variableValue
  refine yields_read ?_
  split
  · next h => exact yields_pure (iff_of_true delimited_elementValue (not_exposed_element h))
  · next h =>
    split
    · next hname =>
      split
      · refine yields_pure ?_
        rw [exposed_var_iff h hname]
        exact env.delimited_fieldValue _ _
      · refine yields_pure ?_
        rw [exposed_var_iff h hname]
        exact env.delimited_document
    · next hname =>
      split
      · next hf =>
        exact yields_pure (iff_of_true (delimited_constantVar hf) (not_exposed_constant hname))
      · exact yields_unsupported _

lemma yields_variableJson {name : String} {path : Option Path} :
    (variableJson name path).Yields env fun x =>
      x.1.Delimited ↔ ¬Exposed env .json (.var name path) := by
  unfold variableJson
  refine yields_read ?_
  split
  · next h =>
    split
    · exact yields_pure (iff_of_true delimited_column (not_exposed_element h))
    · exact yields_pure (iff_of_true delimited_jsonQuery (not_exposed_element h))
  · next h =>
    split
    · next hname =>
      split
      · refine yields_pure ?_
        rw [exposed_var_iff h hname]
        exact env.delimited_fieldJson _
      · refine yields_pure ?_
        rw [exposed_var_iff h hname]
        exact env.delimited_document
    · next hname =>
      refine yields_bind yields_variableValue fun f hf => yields_pure ?_
      rw [hf]
      exact iff_of_true (not_exposed_constant hname) (not_exposed_constant hname)

lemma yields_ofVariable (name : String) (path : Option Path) (m : Manner) :
    (m.text (Reading.ofVariable name path)).Yields env fun f =>
      f.Delimited ↔ ¬Exposed env m (.var name path) := by
  cases m with
  | scalar type => exact yields_then fun _ => yields_variableValue
  | json => exact yields_bind yields_variableJson fun _ hf => yields_pure hf

lemma yields_ofLiteral (l : Literal) (m : Manner) :
    (m.text (Reading.ofLiteral l)).Yields env Delimited := by
  refine yields_ofValue (e := .lit l) [] m fun _ => ?_
  split
  · exact yields_pure delimited_literal
  · exact yields_literal

lemma yields_ofText {e : Expr} {op : TextOp} {args : List Expr} (m : Manner) :
    (m.text (Reading.ofText e op (Reading.ofExprs args))).Yields env fun f =>
      f.Delimited ↔ ¬Exposed env m (.text op args) := by
  cases op with
  | regexMatch =>
    have hcondition {c : Render Condition} : (m.text (Reading.ofCondition e c)).Yields env
        fun f => f.Delimited ↔ ¬Exposed env m (.text .regexMatch args) :=
      (yields_ofCondition m).imp fun f hf => iff_of_true hf (by rintro ⟨⟩)
    unfold Reading.ofText
    split
    · exact hcondition
    · exact hcondition
    · contradiction
  | indexOf =>
    refine yields_ofValue _ m fun _ => ?_
    exact yields_text_indexOf.imp fun f hf => iff_of_false hf (not_not_intro .position)
  | concat =>
    have hexposed : Exposed env m (.text .concat args) ↔
        2 ≤ args.length ∧ ∀ a ∈ args, a.literal?.isSome := by
      refine ⟨?_, fun h => .constants h.1 h.2⟩
      rintro ⟨⟩
      exact ⟨‹_›, ‹_›⟩
    have hargs : (2 ≤ (Reading.ofExprs args).length ∧
        ∀ r ∈ Reading.ofExprs args, r.expr.literal?.isSome) ↔
        2 ≤ args.length ∧ ∀ a ∈ args, a.literal?.isSome := by
      simp [Reading.ofExprs_eq_map, Reading.expr_ofExpr]
    refine yields_ofValue _ m fun _ => ?_
    rw [hexposed, ← hargs]
    refine yields_concatenation fun r hr hl => ?_
    rw [Reading.ofExprs_eq_map] at hr
    obtain ⟨a, -, rfl⟩ := List.mem_map.1 hr
    rw [Reading.expr_ofExpr] at hl
    cases a with
    | lit l =>
      rw [Reading.ofExpr]
      exact yields_ofLiteral l (.scalar none)
    | _ => cases hl
  | _ =>
    refine yields_ofValue _ m fun _ => ?_
    exact (yields_text (by decide) (by decide)).imp fun f hf => iff_of_true hf (by rintro ⟨⟩)

lemma ofOption_eq_none_iff {o : Option Expr} : Reading.ofOption o = none ↔ o = none := by
  cases o <;> simp [Reading.ofOption]

lemma yields_ofConversion {e arg : Expr} {op : Conversion} {target : Option Conversion}
    {onError onNull : Option Expr} (m : Manner)
    (h : ((Reading.ofExpr arg).scalar).Yields env fun f =>
      f.Delimited ↔ ¬Exposed env (.scalar none) arg) :
    (m.text (Reading.ofConversion e op (Reading.ofExpr arg) target (Reading.ofOption onError)
        (Reading.ofOption onNull))).Yields env fun f =>
      f.Delimited ↔ ¬Exposed env m (.convert op arg target onError onNull) := by
  unfold Reading.ofConversion
  cases op with
  | isNumber => exact (yields_ofCondition m).imp fun f hf => iff_of_true hf nofun
  | convert =>
    refine yields_ofValue [] m fun _ => (yields_converted _ h).imp fun f hf => hf.trans ?_
    rw [ofOption_eq_none_iff, ofOption_eq_none_iff]
    constructor
    · rintro hkept (_ | _ | _ | _ | _ | _ | _ | _ | harg | _)
      exact hkept rfl rfl rfl harg
    · rintro hkept rfl rfl rfl harg
      exact hkept (.convert harg)
  | type =>
    exact yields_ofValue [] m fun _ => yields_typeName.imp fun f hf => iff_of_true hf nofun
  | toObjectId =>
    refine yields_ofValue [] m fun _ => yields_bind h fun f hf => yields_read (yields_lift ?_)
    rintro _ ⟨⟩
    exact hf.trans (not_congr ⟨.objectId, fun | .objectId harg => harg⟩)
  | _ =>
    refine yields_ofValue [] m fun _ => yields_then fun f => yields_read ?_
    refine yields_lift fun g hg => ?_
    exact iff_of_true (delimited_cast hg) nofun

lemma yields_object {op : ObjectOp} {args : List Expr} (m : Manner)
    (h : ∀ a, args = [a] → (Reading.ofExpr a).json.Yields env fun x =>
      x.1.Delimited ↔ ¬Exposed env .json a) :
    (Render.object op (Reading.ofExprs args)).Yields env fun f =>
      f.Delimited ↔ ¬Exposed env m (.object op args) := by
  cases op with
  | merge =>
    refine (yields_mergedDocuments (∀ a, args = [a] → ¬Exposed env .json a) fun r hr => ?_).imp
      fun f hf => hf.trans ?_
    · rw [Reading.ofExprs_eq_map] at hr
      obtain ⟨a, rfl, rfl⟩ := List.map_eq_singleton_iff.1 hr
      simpa using h a rfl
    · rw [Reading.ofExprs_eq_map, List.length_map]
      constructor
      · rintro hkept (_ | _ | _ | _ | _ | _ | _ | _ | _ | harg)
        exact hkept rfl _ rfl harg
      · rintro hkept - a rfl harg
        exact hkept (.merge harg)
  | toArray => exact yields_unsupported _
  | ofArray =>
    unfold Render.object
    split
    · contradiction
    · contradiction
    · exact yields_documentOfPairs.imp fun f hf => iff_of_true hf nofun
    · exact yields_fault _

/-- The text of an expression keeps together exactly if the expression is not exposed. The only
operators that write an operand as it is are the conversion to an object id and the merge of one
document, and there the induction goes on. -/
lemma yields_ofExpr (e : Expr) (m : Manner) :
    (m.text (Reading.ofExpr e)).Yields env fun f => f.Delimited ↔ ¬Exposed env m e := by
  have kept {r : Render Fragment} (h : r.Yields env Delimited) (he : ¬Exposed env m e) :
      r.Yields env fun f => f.Delimited ↔ ¬Exposed env m e :=
    h.imp fun f hf => iff_of_true hf he
  cases e with
  | field f =>
    rw [Reading.ofExpr]
    exact yields_ofField f m
  | var name path =>
    rw [Reading.ofExpr]
    exact yields_ofVariable name path m
  | lit l =>
    rw [Reading.ofExpr]
    exact kept (yields_ofLiteral l m) (by rintro ⟨⟩)
  | compare op left right =>
    rw [Reading.ofExpr]
    exact kept (yields_ofCondition m) (by rintro ⟨⟩)
  | logic op operands =>
    rw [Reading.ofExpr]
    exact kept (yields_ofCondition m) (by rintro ⟨⟩)
  | arith op operands =>
    rw [Reading.ofExpr]
    exact kept (yields_ofValue _ m fun _ => yields_arithmetic) (by rintro ⟨⟩)
  | array op input index args var =>
    rw [Reading.ofExpr]
    unfold Reading.ofArray
    split
    · exact kept (yields_ofCondition m) (by rintro ⟨⟩)
    · exact kept (yields_ofValue [] m fun _ => yields_arrayValue) (by rintro ⟨⟩)
  | text op args =>
    rw [Reading.ofExpr]
    exact yields_ofText m
  | date part arg =>
    rw [Reading.ofExpr]
    refine yields_ofValue [] m fun _ => yields_datePart.imp fun f hf => hf.trans (not_congr ?_)
    refine ⟨fun h => h ▸ .dayOfWeek, ?_⟩
    rintro ⟨⟩
    rfl
  | cond test yes no =>
    rw [Reading.ofExpr]
    exact kept (yields_ofValue [] m fun _ => yields_then fun _ => yields_then fun _ =>
      yields_pure delimited_cases) (by rintro ⟨⟩)
  | ifNull args =>
    rw [Reading.ofExpr]
    exact kept (yields_ofValue [] m fun _ => yields_then fun _ => yields_call (by decide)) (by rintro ⟨⟩)
  | switch branches default =>
    rw [Reading.ofExpr]
    refine kept (yields_ofValue [] m fun type => yields_then fun _ => ?_) (by rintro ⟨⟩)
    split
    · exact yields_pure delimited_cases
    · exact yields_then fun _ => yields_pure delimited_cases
  | accumulate op arg =>
    rw [Reading.ofExpr]
    exact kept (yields_ofValue [] m fun _ => yields_overArray) (by rintro ⟨⟩)
  | compoundId fields =>
    rw [Reading.ofExpr]
    exact kept (yields_ofValue [] m fun _ => yields_document) (by rintro ⟨⟩)
  | convert op arg target onError onNull =>
    rw [Reading.ofExpr]
    exact yields_ofConversion m (yields_ofExpr arg (.scalar none))
  | lookupSize source localField foreignField =>
    rw [Reading.ofExpr]
    exact kept (yields_ofValue [] m fun _ => yields_then fun _ => yields_lookupSize) (by rintro ⟨⟩)
  | present f expected =>
    rw [Reading.ofExpr]
    exact kept (yields_ofCondition m) (by rintro ⟨⟩)
  | object op args =>
    rw [Reading.ofExpr]
    refine yields_ofValue [] m fun _ => yields_object m fun a ha => ?_
    exact yields_json (yields_ofExpr a .json)
  | document fields =>
    rw [Reading.ofExpr]
    exact kept (yields_ofValue [] m fun _ => yields_document) (by rintro ⟨⟩)
termination_by sizeOf e
decreasing_by
  · simp; omega
  · subst ha
    simp
    omega

end Render

/-! ## Grouping -/

/-- The operator of arithmetic that is written between its operands. -/
def Arithmetic.operator? : Arithmetic → Option Sign
  | .add => some .plus
  | .subtract => some .minus
  | .multiply => some .times
  | .divide => some .divide
  | _ => none

lemma Arithmetic.sign?_eq (op : Arithmetic) : op.sign? = op.operator?.map Sign.text := by
  cases op <;> rfl

/-- A text groups the operands of an expression, and theirs in turn: where the expression joins
operands by an operator, the text is a bracket around their texts, and it parses to the operator
applied from left to right exactly if none of the operands is exposed. -/
inductive Groups (env : Env) : Expr → Fragment → Prop where
  | operand {e f} :
    (∀ op operands, e = .arith op operands → op.operator? = none) →
    Groups env e f
  | arithmetic {op s operands fs body} :
    op.operator? = some s →
    List.Forall₂ (Manner.number.Emits env) operands fs →
    List.Forall₂ (Groups env) operands fs →
    (body.parse = .chain s (fs.map atoms) ↔ ∀ e ∈ operands, ¬Exposed env .number e) →
    Groups env (.arith op operands) (paren body)

/-- The accumulators whose aggregate has an operator outside all brackets: `COUNT(*) * n` and
`'[' || LISTAGG(…) || ']'`. -/
def ExposedAggregate (op : Accumulator) (arg : Option Expr) : Prop :=
  op = .addToSet ∨ op = .sum ∧ ∃ l, arg = some (.lit l) ∧ l.isNumeric = true ∧ l ≠ .int 1

namespace Render

variable {env : Env}

lemma atoms_separator (s : Sign) : (Fragment.text s!" {s.text} ").atoms = [.sign s] := by
  cases s <;> rfl

/-- The operands of an operator are written in brackets, each by its own text. -/
lemma yields_arithmetic_joined {op : Arithmetic} {s : Sign} {es : List Expr}
    {R : Expr → Fragment → Prop} (hop : op.operator? = some s)
    (h : ∀ e ∈ es, (Reading.ofExpr e).number.Yields env (R e)) :
    (arithmetic op (Reading.ofExprs es)).Yields env fun f =>
      ∃ fs, List.Forall₂ R es fs ∧ f = paren (joined s!" {s.text} " fs) := by
  have hsign : op.sign? = some s.text := by
    rw [op.sign?_eq, hop]
    rfl
  have hreadings : ∀ r ∈ es.map Reading.ofExpr, r.number.Yields env fun f =>
      ∀ e ∈ es, r = Reading.ofExpr e → R e f := by
    intro r hr s f s' hf e he hre
    subst hre
    exact h e he hf
  unfold arithmetic
  split
  · next sign hsome =>
    obtain rfl := Option.some.inj (hsign.symm.trans hsome)
    rw [Reading.ofExprs_eq_map]
    refine yields_bind (yields_mapM hreadings) fun fs hfs => yields_pure ⟨fs, ?_, rfl⟩
    rw [List.forall₂_map_left_iff] at hfs
    exact List.forall₂_iff_get.2 ⟨hfs.length_eq, fun i hi hi' =>
      hfs.get hi hi' _ (List.get_mem _ _) rfl⟩
  · next hnone _ =>
    rw [hsign] at hnone
    cases hnone
  · next hnone _ =>
    rw [hsign] at hnone
    cases hnone

/-- What holds of each text exactly if it does of its expression holds of all. -/
lemma forall_mem_iff_of_forall₂ {α β : Type} {p : α → Prop} {q : β → Prop} {as : List α}
    {bs : List β} (h : List.Forall₂ (fun a b => q b ↔ p a) as bs) :
    (∀ b ∈ bs, q b) ↔ ∀ a ∈ as, p a := by
  induction h with
  | nil => simp
  | cons hab _ ih => simp [hab, ih]

/-- The text of an expression groups its operands. -/
lemma yields_groups (e : Expr) (m : Manner) :
    (m.text (Reading.ofExpr e)).Yields env (Groups env e) := by
  cases e with
  | arith op es =>
    cases hop : op.operator? with
    | none =>
      refine fun _ _ _ _ => .operand ?_
      rintro _ _ ⟨⟩
      exact hop
    | some s =>
      have hoperand : ∀ e ∈ es, (Reading.ofExpr e).number.Yields env fun f =>
          Manner.number.Emits env e f ∧ (f.Delimited ↔ ¬Exposed env .number e) ∧
            Groups env e f := by
        intro e he s f s' hf
        exact ⟨⟨s, s', hf⟩, yields_ofExpr e .number hf, yields_groups e .number hf⟩
      rw [Reading.ofExpr]
      refine yields_ofValue _ m fun _ => (yields_arithmetic_joined hop hoperand).imp ?_
      rintro _ ⟨fs, hfs, rfl⟩
      refine .arithmetic hop (hfs.imp fun _ _ h => h.1) (hfs.imp fun _ _ h => h.2.2) ?_
      rw [parse_joined_eq_chain_iff (atoms_separator s)]
      exact forall_mem_iff_of_forall₂ (hfs.imp fun _ _ h => h.2.1)
  | _ => exact fun _ _ _ _ => .operand (by rintro _ _ ⟨⟩)
termination_by sizeOf e
decreasing_by
  have := List.sizeOf_lt_of_mem he
  simp
  omega

lemma yields_aggregate {op : Accumulator} {arg : Option Expr} :
    (Expr.aggregate op arg).Yields env fun x => x.1.Delimited ↔ ¬ExposedAggregate op arg := by
  have kept {f : Fragment} (hf : f.Delimited) (hset : op ≠ .addToSet) (hsum : op ≠ .sum) :
      f.Delimited ↔ ¬ExposedAggregate op arg :=
    iff_of_true hf fun h => h.elim hset fun h => hsum h.1
  unfold Expr.aggregate aggregate
  cases op with
  | count => exact yields_pure (kept (by decide) (by rintro ⟨⟩) (by rintro ⟨⟩))
  | sum =>
    refine yields_argumentOf fun r hr => yields_bind yields_summed fun f hf => yields_pure ?_
    cases arg with
    | none => cases hr
    | some e =>
      rw [Reading.ofOption] at hr
      cases hr
      refine hf.trans (not_congr ?_)
      rw [Reading.expr_ofExpr]
      cases e <;> simp [ExposedAggregate, Expr.literal?]
  | avg | stdDevPop | stdDevSamp =>
    exact yields_argumentOf fun r hr => yields_then fun _ =>
      yields_pure (kept (delimited_call (by decide)) (by rintro ⟨⟩) (by rintro ⟨⟩))
  | min | max =>
    exact yields_argumentOf fun r hr => yields_bind (yields_extreme delimited_nil) fun f hf =>
      yields_pure (kept hf (by rintro ⟨⟩) (by rintro ⟨⟩))
  | first | last =>
    refine yields_then fun _ => yields_argumentOf fun r hr => yields_then fun f => yields_pure ?_
    exact kept (delimited_append.2 ⟨delimited_call (by decide), by decide⟩) (by rintro ⟨⟩) (by rintro ⟨⟩)
  | push =>
    exact yields_argumentOf fun r hr => yields_then fun _ =>
      yields_pure (kept (delimited_call (by decide)) (by rintro ⟨⟩) (by rintro ⟨⟩))
  | addToSet =>
    exact yields_then fun _ => yields_argumentOf fun r hr => yields_bind yields_collected
      fun f hf => yields_pure (iff_of_false hf (not_not_intro (.inl rfl)))

end Render

/-- In every row, the text of an expression keeps together exactly if the expression is not exposed,
and arithmetic is grouped as it is in the pipeline exactly where no operand is exposed. Among the
bindings of a row, the index of an unwound array is always exposed, and an aggregate is if it sums a
constant or collects a set. -/
theorem arithmetic_grouped_iff_no_operand_exposed (env : Env) :
    (∀ ⦃m e f⦄, m.Emits env e f → (f.Delimited ↔ ¬Exposed env m e) ∧ Groups env e f) ∧
    (∀ ⦃f source type⦄, env.resolve f.path = .value (positionOf source) false →
      Exposed env (.scalar type) (.field f)) ∧
    ∀ ⦃op arg f json s s'⦄, ((Expr.aggregate op arg).run env).run s = .ok (f, json) s' →
      (f.Delimited ↔ ¬ExposedAggregate op arg) := by
  refine ⟨?_, ?_, fun op arg f json s s' h => Render.yields_aggregate h⟩
  · rintro m e f ⟨s, s', h⟩
    exact ⟨Render.yields_ofExpr e m h, Render.yields_groups e m h⟩
  · intro f source type h
    refine .field ?_
    rw [h]
    have hopen : ¬(positionOf source).Delimited := by
      rw [positionOf, delimited_append]
      exact fun h => absurd h.2 (by decide)
    cases f.type.or type with
    | none => exact hopen
    | some t => exact ⟨hopen, .inr rfl⟩

/-- Rows of a stored table. -/
def ordersEnv : Env where
  dialect := .oracle26ai
  strict := false
  inline := false
  checked := false
  schema := none
  dataColumn := "data"
  scope := .document "base" "data"
  elements := []
  stage := none

/-- `$multiply` of `$add` of a field and one, and two. -/
def productOfSum : Expr :=
  .arith .multiply [.arith .add [.field { path := ⟨["a"]⟩ }, .lit (.int 1)], .lit (.int 2)]

/-- A product of a sum is grouped as it is written. -/
theorem productOfSum_grouped :
    ∃ f, Manner.number.Emits ordersEnv productOfSum f ∧ f.Delimited ∧
      Groups ordersEnv productOfSum f := by
  have hemits : ∃ f, Manner.number.Emits ordersEnv productOfSum f := ⟨_, {}, _, rfl⟩
  obtain ⟨f, hf⟩ := hemits
  obtain ⟨hkept, hgroups⟩ := (arithmetic_grouped_iff_no_operand_exposed ordersEnv).1 hf
  exact ⟨f, hf, hkept.2 nofun, hgroups⟩

/-- `$multiply` of the position of `x` in a field, and two. -/
def productOfPosition : Expr :=
  .arith .multiply
    [.text .indexOf [.field { path := ⟨["a"]⟩ }, .lit (.string "x")], .lit (.int 2)]

/-- A product of a position is read as a difference of the position and a product. -/
theorem productOfPosition_regrouped :
    ∃ body instr two, Manner.number.Emits ordersEnv productOfPosition (paren body) ∧
      body.parse =
        .node .minus (.operand instr) (.node .times (.operand [.char '1']) (.operand two)) :=
  ⟨_, _, _, ⟨{}, _, rfl⟩, rfl⟩

end PipelineSql
