import PipelineSql.Proofs.FilterLanguage
import PipelineSql.Proofs.Relation.Render
import PipelineSql.Render

/-!
# Meanings of texts

The text of a field may extract a value from a document, name a column or compute something. What it
is does not matter to a condition that compares it, as long as it has the value of the field. So a
condition is evaluated by a meaning, which gives values to texts and to constants their own. A row
that holds a document is one.
-/

namespace PipelineSql

/-! ## Runs that succeed -/

namespace Render

variable {β γ : Type} {env : Env} {P : List Literal → β → Prop} {Q : List Literal → γ → Prop}

/-- Every run ends without an error, in a value with a property. The property may depend on the
values behind bind slots, of which there may be more by the end. -/
def Succeeds (r : Render β) (env : Env) (P : List Literal → β → Prop) : Prop :=
  ∀ e, ∃ b e', (r.run env).run e = .ok b e' ∧ ∀ values, e'.values <+: values → P values b

lemma Succeeds.imp {P' : List Literal → β → Prop} {r : Render β} (h : r.Succeeds env P)
    (hP : ∀ values b, P values b → P' values b) : r.Succeeds env P' := by
  intro e
  obtain ⟨b, e', hrun, hb⟩ := h e
  exact ⟨b, e', hrun, fun values hvalues => hP values b (hb values hvalues)⟩

lemma succeeds_pure {b : β} (h : ∀ values, P values b) : (pure b : Render β).Succeeds env P :=
  fun e => ⟨b, e, rfl, fun values _ => h values⟩

/-- What holds of the first value still holds at the end, as nothing that was emitted is lost. -/
lemma succeeds_bind {r : Render β} {k : β → Render γ} (hr : r.Succeeds env P)
    (hk : ∀ b, (k b).Succeeds env fun values c => P values b → Q values c) :
    (r >>= k).Succeeds env Q := by
  intro e
  obtain ⟨b, e₁, hrun, hb⟩ := hr e
  obtain ⟨c, e₂, hrun', hc⟩ := hk b e₁
  refine ⟨c, e₂, ?_, fun values hvalues => ?_⟩
  · show ((r.run env) >>= fun b => (k b).run env).run e = .ok c e₂
    simp only [EStateM.run, bind, EStateM.bind] at hrun hrun' ⊢
    rw [hrun]
    exact hrun'
  · have hle := (k b).grows env e₁
    rw [hrun'] at hle
    exact hc values hvalues (hb values (hle.1.trans hvalues))

lemma succeeds_read {k : Env → Render γ} (h : (k env).Succeeds env Q) :
    (read >>= k).Succeeds env Q := by
  intro e
  exact h e

lemma succeeds_lift {x : Result β} {b : β} (hx : x = .ok b) (h : ∀ values, P values b) :
    (liftM x : Render β).Succeeds env P := by
  subst hx
  exact succeeds_pure h

/-- A check that passes changes nothing. -/
lemma succeeds_checked {x : Result Unit} {r : Render β} (hx : x = .ok ()) (h : r.Succeeds env P) :
    (do liftM x; r).Succeeds env P := by
  refine succeeds_bind (P := fun _ _ => True) (succeeds_lift hx fun _ => trivial) fun _ => ?_
  exact h.imp fun _ _ hb _ => hb

/-- One computation for each element. -/
lemma succeeds_mapM {δ : Type} {R : List Literal → δ → β → Prop} {f : δ → Render β} {xs : List δ}
    (h : ∀ x ∈ xs, (f x).Succeeds env fun values b => R values x b) :
    (xs.mapM f).Succeeds env fun values bs => List.Forall₂ (R values) xs bs := by
  rw [← List.mapM'_eq_mapM]
  induction xs with
  | nil => exact succeeds_pure fun _ => .nil
  | cons x xs ih =>
    obtain ⟨hx, hxs⟩ := List.forall_mem_cons.1 h
    refine succeeds_bind hx fun b => ?_
    refine succeeds_bind (ih hxs) fun bs => ?_
    exact succeeds_pure fun _ hbs hb => .cons hb hbs

/-- A bind slot holds its value at the end. -/
lemma succeeds_slot (l : Literal) : (slot l).Succeeds env fun values f =>
    ∃ n, f = [.token (.bind n)] ∧ values[n]? = some l := by
  intro e
  refine ⟨_, _, rfl, fun values hvalues => ⟨e.values.length, rfl, ?_⟩⟩
  obtain ⟨rest, rfl⟩ := hvalues
  simp [Emission.addValue]

end Render

open Render

variable {α : Type} {env : Env} {values : List Literal}

/-! ## Texts -/

/-- The text of a field, as a type if it has none of its own. -/
def Env.fieldText (env : Env) (f : FieldPath) (type : Option JsonType) : Fragment :=
  env.fieldValue f.path (f.type.or type)

lemma succeeds_fieldText (env : Env) (f : FieldPath) (type : Option JsonType) :
    ((Reading.ofExpr (.field f)).value type).Succeeds env fun _ g => g = env.fieldText f type := by
  rw [Reading.ofExpr]
  exact succeeds_checked rfl (succeeds_read (succeeds_pure fun _ => rfl))

/-- Is the text that of a constant, in place or behind a bind slot? -/
def Constant.WrittenAs (values : List Literal) (k : Constant) (g : Fragment) : Prop :=
  g = (Token.literal k.literal : Fragment) ∨
    ∃ slot, g = (Token.bind slot : Fragment) ∧ values[slot]? = some k.literal

lemma succeeds_literalText (env : Env) (k : Constant) :
    (literal k.literal).Succeeds env fun values g => k.WrittenAs values g := by
  have hslot : (slot k.literal).Succeeds env fun values g => k.WrittenAs values g :=
    (succeeds_slot k.literal).imp fun _ _ h => .inr h
  unfold literal
  cases hl : k.literal with
  | null | bool => exact succeeds_pure fun _ => .inl (by rw [hl]; rfl)
  | _ =>
    refine succeeds_read ?_
    split
    · exact succeeds_pure fun _ => .inl (by rw [hl])
    · rw [← hl]
      exact hslot

lemma succeeds_literalTexts (env : Env) (ks : List Constant) :
    ((ks.map Constant.literal).mapM literal).Succeeds env
      fun values gs => List.Forall₂ (Constant.WrittenAs values) ks gs := by
  have hmap : (ks.map Constant.literal).mapM literal = ks.mapM fun k => literal k.literal := by
    rw [List.mapM_map]
    rfl
  rw [hmap]
  exact succeeds_mapM fun k _ => succeeds_literalText env k

/-- A constant is rendered as its literal, whatever the type. -/
lemma succeeds_value_constant {c : Constant} {P : List Literal → Fragment → Prop}
    (h : (literal c.literal).Succeeds env P) (type : Option JsonType) :
    ((Reading.ofExpr (.lit c.literal)).value type).Succeeds env P := by
  have hliteral : (Reading.ofExpr (.lit c.literal)).value type =
      captured (do liftM (Expr.checkShape (.lit c.literal)); literal c.literal) := by
    have hscalar := c.scalar
    rw [Reading.ofExpr]
    cases hl : c.literal with
    | array items =>
      rw [hl] at hscalar
      cases hscalar
    | _ => rfl
  rw [hliteral]
  exact succeeds_checked rfl h

namespace Constant

/-- A constant denotes its literal. -/
lemma ofLiteral?_literal (num : Number → α) (c : Constant) :
    Scalar.ofLiteral? num c.literal = some (c.value num) := by
  have hscalar := c.scalar
  unfold value
  cases hl : c.literal with
  | array items =>
    rw [hl] at hscalar
    cases hscalar
  | _ => rfl

end Constant

/-! ## Meanings -/

/-- A meaning of texts where a statement is evaluated. Constants denote themselves, in place and
behind bind slots. -/
structure Meaning (α : Type) where
  dialect : Dialect
  /-- The order of numbers. -/
  num : Number → α
  /-- The values behind bind slots. -/
  values : List Literal
  value? : Fragment → Option (Scalar α)
  written : ∀ (l : Literal) (w : Scalar α), Scalar.ofLiteral? num l = some w →
    value? (Token.literal l) = some (w.inSql dialect)
  bound : ∀ (slot : Nat) (l : Literal) (w : Scalar α), values[slot]? = some l →
    Scalar.ofLiteral? num l = some w → value? (Token.bind slot) = some (w.inSql dialect)

/-- A constant denotes itself. -/
lemma Meaning.value?_constant (μ : Meaning α) {k : Constant} {g : Fragment}
    (h : k.WrittenAs μ.values g) : μ.value? g = some ((k.value μ.num).inSql μ.dialect) := by
  have hliteral := k.ofLiteral?_literal μ.num
  rcases h with rfl | ⟨slot, rfl, hslot⟩
  · exact μ.written k.literal _ hliteral
  · exact μ.bound slot k.literal _ hslot hliteral

/-- The field has a value beside constants: its text is null only if the value is, and read as the
type of a constant it is the value, which can be compared with the constant. -/
structure Meaning.Reads (μ : Meaning α) (env : Env) (f : FieldPath) (ks : List Constant)
    (v : Scalar α) : Prop where
  dialect : μ.dialect = env.dialect
  presence : ∃ u, μ.value? (env.fieldText f none) = some u ∧ u.isNull = v.isNull
  typed : ∀ k ∈ ks, k.literal.isNull = false →
    μ.value? (env.fieldText f (Literal.type? env.dialect k.literal)) = some (v.inSql μ.dialect)
  comparable : ∀ k ∈ ks, v.Comparable (k.value μ.num)

/-! ## Rows that hold a document -/

variable {ρ : Row α}

namespace Row

/-- The row with other values behind bind slots. -/
def bound (ρ : Row α) (values : List Literal) : Row α :=
  { ρ with values }

/-- The row that an environment reads: its scope is the document of the row. -/
structure Serves (ρ : Row α) (env : Env) : Prop where
  scope : env.scope = .document ρ.source ρ.column
  dialect : ρ.dialect = env.dialect

end Row

/-- What the texts mean on a row that holds a document. -/
def Row.meaning (ρ : Row α) : Meaning α where
  dialect := ρ.dialect
  num := ρ.num
  values := ρ.values
  value? := ρ.value?
  written := by
    intro l w h
    cases l with
    | array items => cases h
    | _ =>
      cases h
      rfl
  bound := by
    intro slot l w hslot h
    show (do
      let v ← Scalar.ofLiteral? ρ.num (← ρ.values[slot]?)
      some (v.inSql ρ.dialect)) = _
    rw [hslot]
    show (do
      let v ← Scalar.ofLiteral? ρ.num l
      some (v.inSql ρ.dialect)) = _
    rw [h]
    rfl

lemma dotted?_steps (steps : List String) (method : String) :
    Fragment.dotted? ((steps.map fun s => Fragment.ofToken (.step s)).flatten ++
      Fragment.text method) = some (steps, method) := by
  induction steps with
  | nil => rfl
  | cons s steps ih =>
    show (Fragment.dotted? ((steps.map fun s => Fragment.ofToken (.step s)).flatten ++
      Fragment.text method)).map _ = _
    rw [ih]
    rfl

/-- The steps of a field are its segments, of which there are some. -/
lemma FieldName.steps_path (f : FieldName) :
    steps f.path.segments = f.path.segments ∧ f.path.segments ≠ [] := by
  constructor
  · unfold steps
    split
    · next h =>
      have hsegment := f.isSegment_of_mem (s := "") (by simp [h])
      exact absurd hsegment (by decide)
    · rfl
  · intro h
    have hvalid := f.valid
    have hroot : isDigits f.path.root = true := by rw [Path.root, h]; decide
    simp only [Path.isFieldName, Bool.and_eq_true, Bool.not_eq_true'] at hvalid
    rw [show (Path.ofString f.text).root = f.path.root from rfl, hroot] at hvalid
    exact absurd hvalid.1.2 (by decide)

/-- A field is extracted from the document by the method of its type. -/
lemma value?_field (h : ρ.Serves env) (f : FieldName) (type : Option JsonType)
    (values : List Literal) :
    (ρ.bound values).value? (env.fieldValue f.path type) =
      ρ.extract? (itemMethod (type.getD .varchar)) (ρ.doc.at? f.path.segments) := by
  obtain ⟨hsteps, hne⟩ := f.steps_path
  have hempty : f.path.segments.isEmpty = false := by simpa using hne
  have hresolve : env.resolve f.path = .place
      { doc := Fragment.column ρ.source ρ.column, steps := f.path.segments, dotted := true } := by
    rw [Env.resolve, h.scope]
    simp [Scope.document, Scope.resolve, DocSource.resolve, DocSource.fragment, hsteps]
  have hdotted := dotted?_steps f.path.segments (itemMethod (type.getD .varchar))
  rw [Env.fieldValue, hresolve]
  simp only [Location.scalar, hempty, Location.dotFragment, Bool.false_eq_true, if_false,
    Bool.not_false, Bool.and_self, if_true]
  show (if ρ.source = ρ.source ∧ ρ.column = ρ.column then do
    let found ← Fragment.dotted? ((f.path.segments.map fun s =>
      Fragment.ofToken (.step s)).flatten ++ Fragment.text (itemMethod (type.getD .varchar)))
    ρ.extract? found.2 (ρ.doc.at? found.1) else none) = _
  rw [if_pos ⟨rfl, rfl⟩, hdotted]
  rfl

/-- A scalar is extracted as text, which is null only if it is. -/
lemma extract?_string {j : Option Json} {v : Scalar α} (hv : Scalar.ofJson? ρ.num j = some v) :
    ∃ w, ρ.extract? (itemMethod .varchar) j = some w ∧ w.isNull = v.isNull := by
  rcases j with _ | j
  · cases hv
    exact ⟨_, rfl, rfl⟩
  · cases j <;> cases hv <;> exact ⟨_, rfl, rfl⟩

/-- A value that can be compared with a constant is extracted as the type of the constant. -/
lemma Constant.extract?_type {j : Option Json} {v : Scalar α} (hv : Scalar.ofJson? ρ.num j = some v)
    (c : Constant) (hc : c.literal.isNull = false) (hcomp : v.Comparable (c.value ρ.num)) :
    ∃ t, Literal.type? ρ.dialect c.literal = some t ∧
      ρ.extract? (itemMethod t) j = some (v.inSql ρ.dialect) := by
  have hscalar := c.scalar
  unfold value at hcomp
  cases hl : c.literal with
  | null =>
    rw [hl] at hc
    cases hc
  | array items =>
    rw [hl] at hscalar
    cases hscalar
  | bool b =>
    simp only [hl] at hcomp
    cases hd : ρ.dialect <;> rcases j with _ | j <;> try (cases hv; exact ⟨_, rfl, rfl⟩)
    all_goals cases j <;> cases hv <;> first | exact ⟨_, rfl, rfl⟩ | exact hcomp.elim
  | _ =>
    simp only [hl] at hcomp
    rcases j with _ | j
    · cases hv
      exact ⟨_, rfl, rfl⟩
    · cases j <;> cases hv <;> first | exact ⟨_, rfl, rfl⟩ | exact hcomp.elim

/-- The fields of a stored document have their values. -/
lemma Row.reads {ρ : Row α} (h : ρ.Serves env) (f : FieldName) {ks : List Constant} {v : Scalar α}
    (hv : Scalar.ofJson? ρ.num (ρ.doc.at? f.path.segments) = some v)
    (hcomp : ∀ k ∈ ks, v.Comparable (k.value ρ.num)) (values : List Literal) :
    (ρ.bound values).meaning.Reads env { path := f.path } ks v where
  dialect := h.dialect
  presence := by
    obtain ⟨u, hu, hnull⟩ := extract?_string hv
    exact ⟨u, (value?_field h f none values).trans hu, hnull⟩
  typed := by
    intro k hk hnull
    obtain ⟨type, htype, hextract⟩ := k.extract?_type hv hnull (hcomp k hk)
    rw [← h.dialect, htype]
    exact (value?_field h f (some type) values).trans hextract
  comparable := hcomp

/-! ## Conditions -/

/-- A value is represented by null only if it is null. -/
lemma Scalar.isNull_inSql (d : Dialect) (v : Scalar α) : (v.inSql d).isNull = v.isNull := by
  cases v with
  | bool b => cases d <;> rfl
  | _ => rfl

lemma Scalar.eq_null {v : Scalar α} (h : v.isNull = true) : v = .null := by
  cases v with
  | null => rfl
  | _ => cases h

lemma Scalar.Comparable.symm {v w : Scalar α} (h : v.Comparable w) : w.Comparable v := by
  cases v <;> cases w <;> exact h

variable [LinearOrder α]

/-- The texts of booleans are ordered as the booleans are. -/
lemma OrderOp.holds_boolText (op : OrderOp) (a b : Bool) :
    op.holds (Scalar.boolText a) (Scalar.boolText b) = op.holds a b := by
  cases op <;> cases a <;> cases b <;> decide

/-- A comparison with a constant other than null is unknown for null and right otherwise. -/
lemma Scalar.compare?_inSql {v w : Scalar α} (d : Dialect) (op : OrderOp) (hcomp : v.Comparable w)
    (hw : w.isNull = false) :
    Scalar.compare? op (v.inSql d) (w.inSql d) =
      some (if v.isNull then none else some (v.matchesOp op w)) := by
  cases w with
  | null => cases hw
  | bool b =>
    cases v with
    | null => cases d <;> rfl
    | bool a => cases d <;> simp [inSql, ofBool, Dialect.hasBoolean, compare?, isNull, matchesOp,
        op.holds_boolText]
    | _ => exact hcomp.elim
  | number a =>
    cases v with
    | null | number _ => rfl
    | _ => exact hcomp.elim
  | text s =>
    cases v with
    | null | text _ => rfl
    | _ => exact hcomp.elim

/-- Equality with each of several constants other than null. -/
lemma mapM_compare? {v : Scalar α} (d : Dialect) {ws : List (Scalar α)}
    (hws : ∀ w ∈ ws, v.Comparable w ∧ w.isNull = false) :
    (ws.map (Scalar.inSql d)).mapM (Scalar.compare? .eq (v.inSql d)) =
      some (ws.map fun w => if v.isNull then none else some (v.matchesOp .eq w)) := by
  induction ws with
  | nil => rfl
  | cons w ws ih =>
    obtain ⟨⟨hcomp, hw⟩, hrest⟩ := List.forall_mem_cons.1 hws
    rw [List.map_cons, List.mapM_cons, Scalar.compare?_inSql d .eq hcomp hw, ih hrest]
    rfl

/-- Membership of constants other than null is unknown for null and right otherwise. -/
lemma among?_inSql {v : Scalar α} (d : Dialect) {ws : List (Scalar α)} (hne : ws ≠ [])
    (hws : ∀ w ∈ ws, v.Comparable w ∧ w.isNull = false) :
    Scalar.among? (v.inSql d) (ws.map (Scalar.inSql d)) =
      some (if v.isNull then none else some (ws.any fun w => v.matchesOp .eq w)) := by
  rw [Scalar.among?, mapM_compare? d hws, Option.map_some]
  cases hv : v.isNull with
  | true => exact congrArg some (Truth.any_map_none hne)
  | false => exact congrArg some (Truth.any_map_some _ ws)

/-- The truth of a condition by what its texts mean. -/
def Meaning.truth? (μ : Meaning α) (c : Condition) : Option Truth :=
  c.truth? μ.value?

/-- The truth of a condition on a row that holds a document. -/
def Row.truth? (ρ : Row α) (c : Condition) : Option Truth :=
  ρ.meaning.truth? c

lemma Row.truth?_eq (ρ : Row α) (c : Condition) : ρ.truth? c = c.truth? ρ.value? :=
  rfl

namespace Meaning

variable {μ : Meaning α} {v w : Scalar α} {l r : Fragment}

lemma truth?_isNull (hl : μ.value? l = some v) : μ.truth? (.isNull l) = some (some v.isNull) := by
  rw [truth?, Condition.truth?, hl]
  rfl

lemma truth?_isNotNull (hl : μ.value? l = some v) :
    μ.truth? (.isNotNull l) = some (some !v.isNull) := by
  rw [truth?, Condition.truth?, hl]
  rfl

lemma truth?_any_pair {c c' : Condition} {t t' : Truth} (hc : μ.truth? c = some t)
    (hc' : μ.truth? c' = some t') : μ.truth? (.any [c, c']) = some (t.either t') := by
  simp only [truth?] at hc hc' ⊢
  simp only [Condition.truth?, Condition.truths?, hc, hc']
  show some (Truth.any [t, t']) = _
  simp

lemma truth?_all_pair {c c' : Condition} {t t' : Truth} (hc : μ.truth? c = some t)
    (hc' : μ.truth? c' = some t') : μ.truth? (.all [c, c']) = some (t.both t') := by
  simp only [truth?] at hc hc' ⊢
  simp only [Condition.truth?, Condition.truths?, hc, hc']
  show some (Truth.all [t, t']) = _
  simp

/-- The truth of a relation between a value and one that is not null, in either order. -/
lemma truth?_relation (op : OrderOp) (hcomp : v.Comparable w) (hw : w.isNull = false)
    (hl : μ.value? l = some (v.inSql μ.dialect)) (hr : μ.value? r = some (w.inSql μ.dialect)) :
    μ.truth? (.relation op.comparison l r) =
        some (if v.isNull then none else some (v.matchesOp op w)) ∧
      μ.truth? (.relation op.comparison r l) =
        some (if v.isNull then none else some (w.matchesOp op v)) := by
  simp only [truth?, Condition.truth?, OrderOp.ofComparison?_comparison, hl, hr]
  refine ⟨Scalar.compare?_inSql μ.dialect op hcomp hw, ?_⟩
  show Scalar.compare? op (w.inSql μ.dialect) (v.inSql μ.dialect) = _
  cases hv : v.isNull with
  | true =>
    obtain rfl := Scalar.eq_null hv
    cases w.inSql μ.dialect <;> rfl
  | false =>
    rw [Scalar.compare?_inSql μ.dialect op hcomp.symm hv, hw]

/-- A value looked for in a list of constants other than null. -/
lemma truth?_among {items : List Fragment} {ks : List Constant} (negated : Bool) (hne : ks ≠ [])
    (hks : ∀ k ∈ ks, v.Comparable (k.value μ.num) ∧ k.literal.isNull = false)
    (hl : μ.value? l = some (v.inSql μ.dialect))
    (hitems : List.Forall₂ (Constant.WrittenAs μ.values) ks items) :
    μ.truth? (.among l items negated) = some (if v.isNull then none
      else some (negated != (ks.map (Constant.value μ.num)).any fun w => v.matchesOp .eq w)) := by
  have hvalues : items.mapM μ.value? =
      some ((ks.map (Constant.value μ.num)).map (Scalar.inSql μ.dialect)) := by
    clear hks hne
    induction hitems with
    | nil => rfl
    | cons hk _ ih =>
      rw [List.mapM_cons, μ.value?_constant hk, ih]
      rfl
  have hws : ∀ w ∈ ks.map (Constant.value μ.num), v.Comparable w ∧ w.isNull = false := by
    intro w hw
    obtain ⟨k, hk, rfl⟩ := List.mem_map.1 hw
    exact ⟨(hks k hk).1, by rw [k.isNull_value, (hks k hk).2]⟩
  rw [truth?, Condition.truth?, hl, hvalues]
  show (do
    let t ← Scalar.among? (v.inSql μ.dialect) ((ks.map (Constant.value μ.num)).map
      (Scalar.inSql μ.dialect))
    some (if negated then t.negate else t)) = _
  rw [among?_inSql μ.dialect (by simpa using hne) hws]
  cases negated <;> cases v.isNull <;> simp [Truth.negate]

end Meaning

end PipelineSql
