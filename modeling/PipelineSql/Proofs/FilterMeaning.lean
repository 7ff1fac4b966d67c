import PipelineSql.Compile
import PipelineSql.Proofs.FieldAtoms

/-!
# The meaning of rendered filters

A filter on stored documents is rendered as a condition whose truth, evaluated by three-valued
logic, is the truth of its formula. So it is true only of documents that match. A document that
matches is lost exactly if the truth is unknown, which takes a negation over a field that is absent:
`NOT` keeps the unknown, while a negated filter matches what its operand does not.
-/

namespace PipelineSql

open Render

variable {α : Type} [LinearOrder α] {ρ : Row α} {env : Env}

/-! ## Tests -/

/-- The condition is rendered, and its truth on the row is the given one. -/
def Decides (ρ : Row α) (env : Env) (r : Render Condition) (t : Truth) : Prop :=
  r.Succeeds env fun values c => (ρ.bound values).truth? c = some t

/-- A test of a field is decided as three-valued logic decides it. -/
lemma decides_test (h : ρ.Serves env) (f : FieldName) (t : FieldTest) {v : Scalar α}
    (hv : Scalar.ofJson? ρ.num (ρ.doc.at? f.path.segments) = some v)
    (hcomp : ∀ c ∈ t.constants, v.Comparable (c.value ρ.num)) :
    Decides ρ env (t.expr { path := f.path }).condition (t.truth ρ.num v) := by
  refine (FieldAtom.succeeds_condition env { path := f.path } (.test t)).imp fun values c hc => ?_
  rw [← FieldAtom.truth_test]
  exact hc.truth (ρ.bound values).meaning v rfl (Row.reads h f hv hcomp values)

/-! ## Connectives -/

/-- Each of the expressions is decided. -/
def DecidesAll (ρ : Row α) (env : Env) : List Expr → List Truth → Prop :=
  List.Forall₂ fun e t => Decides ρ env e.condition t

lemma succeeds_conditions {es : List Expr} {ts : List Truth} (h : DecidesAll ρ env es ts) :
    ((Reading.ofExprs es).mapM Reading.condition).Succeeds env fun values cs =>
      Condition.truths? (ρ.bound values).value? cs = some ts := by
  rw [← List.mapM'_eq_mapM]
  induction h with
  | nil => exact succeeds_pure fun _ => rfl
  | @cons e t es ts he _ ih =>
    rw [Reading.ofExprs]
    refine succeeds_bind he fun c => succeeds_bind ih fun cs => ?_
    refine succeeds_pure fun values hcs hc => ?_
    rw [Row.truth?_eq] at hc
    rw [Condition.truths?, hc, hcs]
    rfl

/-- What a connective makes of truth values. -/
def Connective.combine : Connective → List Truth → Truth
  | .and, ts => .all ts
  | .or, ts => .any ts
  | .not, ts | .nor, ts => .negate (.any ts)

/-- A connective over decided expressions. -/
lemma decides_logic (op : Connective) {e : Expr} {es : List Expr} {t : Truth} {ts : List Truth}
    (hshape : (Expr.logic op (e :: es)).checkShape = .ok ())
    (h : DecidesAll ρ env (e :: es) (t :: ts)) :
    Decides ρ env (Expr.logic op (e :: es)).condition (op.combine (t :: ts)) := by
  have hconditions := succeeds_conditions h
  rw [Expr.condition, Reading.ofExpr]
  refine succeeds_checked hshape ?_
  cases op with
  | not =>
    cases h with
    | cons he hes =>
      cases hes with
      | nil =>
        refine succeeds_bind he fun c => succeeds_pure fun values hc => ?_
        rw [Row.truth?_eq] at hc ⊢
        rw [Condition.truth?, Condition.truths?, hc]
        rfl
      | cons _ _ => cases hshape
  | nor =>
    refine succeeds_bind hconditions fun cs => succeeds_pure fun values hcs => ?_
    rw [Row.truth?_eq, Condition.truth?, hcs]
    rfl
  | and =>
    cases h with
    | cons he hes =>
      cases hes with
      | nil =>
        -- A lone operand stands for itself.
        rw [Connective.combine, Truth.all_cons, Truth.all_nil, Truth.both_true]
        exact he
      | cons _ _ =>
        refine succeeds_bind hconditions fun cs => succeeds_pure fun values hcs => ?_
        rw [Row.truth?_eq, Condition.truth?, hcs]
        rfl
  | or =>
    cases h with
    | cons he hes =>
      cases hes with
      | nil =>
        rw [Connective.combine, Truth.any_cons, Truth.any_nil, Truth.either_false]
        exact he
      | cons _ _ =>
        refine succeeds_bind hconditions fun cs => succeeds_pure fun values hcs => ?_
        rw [Row.truth?_eq, Condition.truth?, hcs]
        rfl

/-- A conjunction of decided expressions, of which there may be none. -/
lemma decides_conjunction {es : List Expr} {ts : List Truth} (h : DecidesAll ρ env es ts) :
    Decides ρ env (conjunction es).condition (.all ts) := by
  cases h with
  | nil => exact succeeds_pure fun _ => rfl
  | cons he hes =>
    cases hes with
    | nil =>
      rw [Truth.all_cons, Truth.all_nil, Truth.both_true]
      exact he
    | cons he' hes => exact decides_logic .and rfl (.cons he (.cons he' hes))

namespace Formula

mutual

/-- The truth of the rendered condition is that of the formula. -/
lemma decides (h : ρ.Serves env) : ∀ f : Formula, f.Fits ρ.num ρ.doc →
    Decides ρ env f.expr.condition (f.truth ρ.num ρ.doc)
  | .test field t, hfits => by
    obtain ⟨v, hv, hcomp⟩ := hfits
    have hvalue : fieldValue ρ.num ρ.doc field = v := by rw [fieldValue, hv, Option.getD_some]
    rw [expr, truth, hvalue]
    exact decides_test h field t hv hcomp
  | .conj fs, hfits => by
    rw [expr, truth]
    exact decides_conjunction (decidesAll h fs hfits)
  | .gate .and f fs, hfits => by
    rw [expr, truth]
    exact decides_logic .and rfl (.cons (decides h f hfits.1) (decidesAll h fs hfits.2))
  | .gate .or f fs, hfits => by
    rw [expr, truth]
    exact decides_logic .or rfl (.cons (decides h f hfits.1) (decidesAll h fs hfits.2))
  | .gate .nor f fs, hfits => by
    rw [expr, truth]
    exact decides_logic .nor rfl (.cons (decides h f hfits.1) (decidesAll h fs hfits.2))
  | .not f, hfits => by
    have hnot := decides_logic .not rfl (.cons (decides h f hfits) .nil)
    rw [Connective.combine, Truth.any_cons, Truth.any_nil, Truth.either_false] at hnot
    rw [expr, truth]
    exact hnot

lemma decidesAll (h : ρ.Serves env) : ∀ fs : List Formula, AllFit ρ.num ρ.doc fs →
    DecidesAll ρ env (exprs fs) (truths ρ.num ρ.doc fs)
  | [], _ => .nil
  | f :: fs, hfits => .cons (decides h f hfits.1) (decidesAll h fs hfits.2)

end

end Formula

/-- A filter on rows that can still be filtered goes into the `WHERE` clause. -/
lemma run_filter {b : Draft} (hb : b.acceptsRows = true) {test : Expr} {c : Condition}
    {e e' : Emission} (h : (test.condition.run { env with scope := b.scope }).run e = .ok c e') :
    ((Draft.stage (.filter test) b).run env).run e = .ok (b.filter c) e' := by
  have hgrouped : b.grouped = false := by
    simp only [Draft.acceptsRows, Bool.and_eq_true, Bool.not_eq_true'] at hb
    exact hb.1.1
  have hstage : Draft.stage (.filter test) b = (do
      let c ← b.render test.condition
      return b.filter c) := by
    rw [Draft.stage, Draft.filterStage, hgrouped, Draft.rowsReady, hb]
    rfl
  rw [hstage]
  show ((test.condition.run { env with scope := b.scope }) >>= fun c => pure (b.filter c)).run e = _
  simp only [EStateM.run, bind, EStateM.bind] at h ⊢
  rw [h]
  rfl

/-- A `$match` of a filter on the rows of a collection is rendered without an error, and puts a
condition into the `WHERE` clause whose truth is that of the filter in three-valued logic. The
condition is true only of documents that match; it is true of exactly these unless the document
matches and the truth is unknown; and it is where nothing is negated. -/
theorem filter_holds_iff_matches_unless_unknown (f : Filter) (b : Draft) (env : Env) (ρ : Row α)
    (hrows : b.acceptsRows = true) (hscope : b.scope = .document ρ.source ρ.column)
    (hdialect : ρ.dialect = env.dialect) (hfits : f.formula.Fits ρ.num ρ.doc) (e : Emission) :
    parseFilter f.toJson = .ok f.formula.expr ∧
    ∃ c e', ((Draft.stage (.filter f.formula.expr) b).run env).run e = .ok (b.filter c) e' ∧
      ∀ values, e'.values <+: values →
        (ρ.bound values).truth? c = some (f.formula.truth ρ.num ρ.doc) ∧
        ((ρ.bound values).truth? c = some (some true) → f.formula.matchesDoc ρ.num ρ.doc = true) ∧
        (((ρ.bound values).truth? c = some (some true) ↔
            f.formula.matchesDoc ρ.num ρ.doc = true) ↔
          ¬ (f.formula.truth ρ.num ρ.doc = none ∧ f.formula.matchesDoc ρ.num ρ.doc = true)) ∧
        (f.formula.isPositive = true → ((ρ.bound values).truth? c = some (some true) ↔
          f.formula.matchesDoc ρ.num ρ.doc = true)) := by
  have hserves : ρ.Serves { env with scope := b.scope } := ⟨hscope, hdialect⟩
  obtain ⟨c, e', hrun, htruth⟩ := f.formula.decides hserves hfits e
  refine ⟨parseFilter_toJson f, c, e', run_filter hrows hrun, fun values hvalues => ?_⟩
  have hbelow := f.formula.truth_below ρ.num ρ.doc
  simp only [htruth values hvalues, Option.some_inj, true_and]
  refine ⟨fun h => (hbelow true h).symm, ?_, f.formula.truth_eq_true_iff ρ.num ρ.doc⟩
  rcases ht : f.formula.truth ρ.num ρ.doc with _ | t
  · simp
  · have hmatch := hbelow t ht
    simp [hmatch]

/-! ## An absent field under a negation -/

/-- The field `a`. -/
def fieldA : FieldName := ⟨"a", by decide⟩

/-- The constant 5. -/
def five : Constant := ⟨.num (.int 5), .int 5, rfl, rfl⟩

/-- `{$nor: [{a: 5}]}` -/
def notFive : Filter := [.gate .nor [.equals fieldA five] []]

/-- Integers in their order. -/
def intOf : Number → Int
  | .int n => n
  | .float _ => 0

/-- A row of the outermost collection. -/
def storedRow (doc : Json) : Row Int :=
  { source := baseAlias, column := "data", doc, dialect := .oracle26ai, values := [], num := intOf }

/-- The rows of the outermost collection. -/
def storedRows : Draft :=
  .ofSource (.table { table := "orders", label := some baseAlias }) (.document baseAlias "data") []

theorem notFive_holds_of_four : ∃ c e',
    ((Draft.stage (.filter notFive.formula.expr) storedRows).run (Env.of {} {})).run {} =
      .ok (storedRows.filter c) e' ∧
    ((storedRow (.obj [("a", .num (.int 4))])).bound e'.values).truth? c = some (some true) := by
  let ρ := storedRow (.obj [("a", .num (.int 4))])
  obtain ⟨_, c, e', hrun, hall⟩ := filter_holds_iff_matches_unless_unknown notFive storedRows
    (Env.of {} {}) ρ rfl rfl rfl ⟨⟨⟨⟨_, rfl, by simp [FieldTest.constants, five, Constant.value,
      Scalar.Comparable]⟩, trivial⟩, trivial⟩, trivial⟩ {}
  exact ⟨c, e', hrun, (hall _ List.prefix_rfl).1.trans rfl⟩

/-- A document without the field matches, and the condition is unknown. -/
theorem notFive_loses_absent : notFive.formula.matchesDoc intOf (.obj []) = true ∧ ∃ c e',
    ((Draft.stage (.filter notFive.formula.expr) storedRows).run (Env.of {} {})).run {} =
      .ok (storedRows.filter c) e' ∧
    ((storedRow (.obj [])).bound e'.values).truth? c = some none :=
  ⟨rfl, _, _, rfl, rfl⟩

end PipelineSql
