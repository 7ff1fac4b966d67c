import PipelineSql.Grammar
import PipelineSql.Proofs.Truth

/-!
# A language of filters

The filters that compare fields with scalar constants, by the query operators for order, equality and
membership, under any nesting of `$not`, `$and`, `$or` and `$nor`. A filter of the language is
spelled as JSON, and it is a formula over tests of fields. A formula has two meanings: whether a
document matches it, which is true or false, and the truth value that three-valued logic gives it.
-/

namespace PipelineSql

/-! ## Formulas -/

/-- The name of a field. -/
structure FieldName where
  text : String
  valid : (Path.ofString text).isFieldName = true

/-- The path of a field. -/
def FieldName.path (f : FieldName) : Path :=
  Path.ofString f.text

/-- A scalar constant, with its JSON text. -/
structure Constant where
  json : Json
  literal : Literal
  spelled : Literal.ofJson? json = some literal
  scalar : literal.items? = none

/-- What is asked of the value of a field. -/
inductive FieldTest where
  | compare (op : OrderOp) (c : Constant)
  | among (negated : Bool) (first : Constant) (rest : List Constant)

/-- The connectives of filters. -/
inductive Gate where
  | and
  | or
  | nor
deriving DecidableEq

/-- Tests of fields with connectives. -/
inductive Formula where
  | test (field : FieldName) (t : FieldTest)
  /-- All of the formulas, of which there may be none. -/
  | conj (fs : List Formula)
  | gate (op : Gate) (first : Formula) (rest : List Formula)
  | not (f : Formula)

variable {α : Type} [LinearOrder α]

/-! ## Meaning -/

namespace Scalar

/-- Does a comparison match? Values of different types are only unequal, and null is equal to null
alone. -/
def matchesOp (op : OrderOp) : Scalar α → Scalar α → Bool
  | .null, .null => op = .eq ∨ op = .gte ∨ op = .lte
  | .number a, .number b => op.holds a b
  | .text s, .text t => op.holds s t
  | .bool a, .bool b => op.holds a b
  | _, _ => op = .ne

/-- Have two values the same type, or is one of them null? -/
def Comparable (v w : Scalar α) : Prop :=
  match v, w with
  | .null, _ | _, .null | .number _, .number _ | .text _, .text _ | .bool _, .bool _ => True
  | _, _ => False

end Scalar

namespace Constant

/-- The scalar that the constant denotes. -/
def value (num : Number → α) (c : Constant) : Scalar α :=
  match c.literal with
  | .null | .array _ => .null
  | .bool b => .bool b
  | .int n => .number (num (.int n))
  | .double x => .number (num (.float x))
  | .string s => .text s

omit [LinearOrder α] in
/-- A constant is null if its literal is. -/
lemma isNull_value (num : Number → α) (c : Constant) : (c.value num).isNull = c.literal.isNull := by
  have hscalar := c.scalar
  unfold value
  cases hl : c.literal with
  | array items =>
    rw [hl] at hscalar
    cases hscalar
  | _ => rfl

end Constant

namespace FieldTest

/-- The constants of a test. -/
def constants : FieldTest → List Constant
  | .compare _ c => [c]
  | .among _ first rest => first :: rest

/-- Does a value match? -/
def matchesValue (num : Number → α) (v : Scalar α) : FieldTest → Bool
  | .compare op c => v.matchesOp op (c.value num)
  | .among negated first rest =>
    negated != (first :: rest).any fun c => v.matchesOp .eq (c.value num)

/-- Is null an answer of its own? It is to a negative test, and where null is among the constants. -/
def decidesNull : FieldTest → Bool
  | .compare op c => op = .ne ∨ c.literal.isNull
  | .among negated first rest => negated || (first :: rest).any fun c => c.literal.isNull

/-- The truth of a test: unknown for null, unless the test decides null. -/
def truth (num : Number → α) (v : Scalar α) (t : FieldTest) : Truth :=
  if v.isNull && !t.decidesNull then none else some (t.matchesValue num v)

end FieldTest

namespace Formula

/-- The value of a field in a document. -/
def fieldValue (num : Number → α) (doc : Json) (f : FieldName) : Scalar α :=
  (Scalar.ofJson? num (doc.at? f.path.segments)).getD .null

mutual

/-- Does a document match? -/
def matchesDoc (num : Number → α) (doc : Json) : Formula → Bool
  | .test field t => t.matchesValue num (fieldValue num doc field)
  | .conj fs => allMatch num doc fs
  | .gate .and f fs => matchesDoc num doc f && allMatch num doc fs
  | .gate .or f fs => matchesDoc num doc f || anyMatches num doc fs
  | .gate .nor f fs => !(matchesDoc num doc f || anyMatches num doc fs)
  | .not f => !matchesDoc num doc f

/-- Does a document match all formulas? -/
def allMatch (num : Number → α) (doc : Json) : List Formula → Bool
  | [] => true
  | f :: fs => matchesDoc num doc f && allMatch num doc fs

/-- Does a document match any formula? -/
def anyMatches (num : Number → α) (doc : Json) : List Formula → Bool
  | [] => false
  | f :: fs => matchesDoc num doc f || anyMatches num doc fs

end

mutual

/-- The truth of a formula in three-valued logic. -/
def truth (num : Number → α) (doc : Json) : Formula → Truth
  | .test field t => t.truth num (fieldValue num doc field)
  | .conj fs => .all (truths num doc fs)
  | .gate .and f fs => .all (truth num doc f :: truths num doc fs)
  | .gate .or f fs => .any (truth num doc f :: truths num doc fs)
  | .gate .nor f fs => .negate (.any (truth num doc f :: truths num doc fs))
  | .not f => .negate (truth num doc f)

/-- The truth of formulas. -/
def truths (num : Number → α) (doc : Json) : List Formula → List Truth
  | [] => []
  | f :: fs => truth num doc f :: truths num doc fs

end

mutual

/-- Is every field of a formula absent, null or a scalar of the type of its constants? -/
def Fits (num : Number → α) (doc : Json) : Formula → Prop
  | .test field t => ∃ v, Scalar.ofJson? num (doc.at? field.path.segments) = some v ∧
      ∀ c ∈ t.constants, v.Comparable (c.value num)
  | .conj fs => AllFit num doc fs
  | .gate _ f fs => Fits num doc f ∧ AllFit num doc fs
  | .not f => Fits num doc f

/-- Is every field of the formulas so? -/
def AllFit (num : Number → α) (doc : Json) : List Formula → Prop
  | [] => True
  | f :: fs => Fits num doc f ∧ AllFit num doc fs

end

mutual

/-- Is nothing negated? -/
def isPositive : Formula → Bool
  | .test .. => true
  | .conj fs => arePositive fs
  | .gate op f fs => op != .nor && isPositive f && arePositive fs
  | .not _ => false

/-- Is nothing negated in any of the formulas? -/
def arePositive : List Formula → Bool
  | [] => true
  | f :: fs => isPositive f && arePositive fs

end

end Formula

/-! ## Matching and truth -/

/-- Null is no answer to a test that does not decide it. -/
lemma FieldTest.matchesValue_null {num : Number → α} {t : FieldTest}
    (h : t.decidesNull = false) : t.matchesValue num .null = false := by
  have hnull : ∀ {op : OrderOp} {w : Scalar α}, op ≠ .ne → w.isNull = false →
      Scalar.matchesOp op .null w = false := by
    intro op w hop hw
    cases w with
    | null => cases hw
    | _ => simp [Scalar.matchesOp, hop]
  cases t with
  | compare op c =>
    simp only [decidesNull, decide_eq_false_iff_not, not_or, Bool.not_eq_true] at h
    exact hnull h.1 (by rw [c.isNull_value, h.2])
  | among negated first rest =>
    simp only [decidesNull, Bool.or_eq_false_iff, List.any_eq_false, Bool.not_eq_true] at h
    obtain ⟨rfl, hrest⟩ := h
    rw [matchesValue, Bool.false_bne, List.any_eq_false]
    intro c hc
    rw [Bool.not_eq_true]
    exact hnull (by decide) (by rw [c.isNull_value, hrest c hc])

/-- The truth of a test is the answer, unless null is in question. -/
lemma FieldTest.truth_eq (num : Number → α) (v : Scalar α) (t : FieldTest) :
    t.truth num v = some (t.matchesValue num v) ∨
      t.truth num v = none ∧ t.matchesValue num v = false := by
  unfold truth
  split
  · next h =>
    simp only [Bool.and_eq_true, Bool.not_eq_true'] at h
    obtain ⟨hv, ht⟩ := h
    cases v with
    | null => exact .inr ⟨rfl, matchesValue_null ht⟩
    | _ => cases hv
  · exact .inl rfl

namespace Formula

variable (num : Number → α) (doc : Json)

mutual

/-- A truth value that is known is the right answer. -/
lemma truth_below : ∀ f : Formula, (f.truth num doc).Below (f.matchesDoc num doc)
  | .test field t => by
    rw [truth, matchesDoc]
    rcases t.truth_eq num (fieldValue num doc field) with h | ⟨h, _⟩
    · rw [h]
      exact Truth.below_some _
    · rw [h]
      exact Truth.below_none _
  | .conj fs => by
    rw [truth, matchesDoc]
    exact all_below fs
  | .gate .and f fs => by
    rw [truth, matchesDoc]
    exact (truth_below f).both (all_below fs)
  | .gate .or f fs => by
    rw [truth, matchesDoc]
    exact (truth_below f).either (any_below fs)
  | .gate .nor f fs => by
    rw [truth, matchesDoc]
    exact ((truth_below f).either (any_below fs)).negate
  | .not f => by
    rw [truth, matchesDoc]
    exact (truth_below f).negate

lemma all_below : ∀ fs : List Formula, (Truth.all (truths num doc fs)).Below (allMatch num doc fs)
  | [] => by
    rw [truths, allMatch]
    exact Truth.below_some true
  | f :: fs => by
    rw [truths, allMatch]
    exact (truth_below f).both (all_below fs)

lemma any_below : ∀ fs : List Formula, (Truth.any (truths num doc fs)).Below (anyMatches num doc fs)
  | [] => by
    rw [truths, anyMatches]
    exact Truth.below_some false
  | f :: fs => by
    rw [truths, anyMatches]
    exact (truth_below f).either (any_below fs)

end

mutual

/-- Where nothing is negated, what is not known to be true does not match. -/
lemma truth_eq_true_iff : ∀ f : Formula, f.isPositive = true →
    (f.truth num doc = some true ↔ f.matchesDoc num doc = true)
  | .test field t, _ => by
    rw [truth, matchesDoc]
    rcases t.truth_eq num (fieldValue num doc field) with h | ⟨h, hmatch⟩
    · rw [h, Option.some_inj]
    · simp [h, hmatch]
  | .conj fs, h => by
    rw [truth, matchesDoc]
    exact all_eq_true_iff fs h
  | .gate .and f fs, h => by
    simp only [isPositive, Bool.and_eq_true] at h
    rw [truth, matchesDoc, Truth.all_cons, Truth.both_eq_true, Bool.and_eq_true,
      truth_eq_true_iff f h.1.2, all_eq_true_iff fs h.2]
  | .gate .or f fs, h => by
    simp only [isPositive, Bool.and_eq_true] at h
    rw [truth, matchesDoc, Truth.any_cons, Truth.either_eq_true, Bool.or_eq_true,
      truth_eq_true_iff f h.1.2, any_eq_true_iff fs h.2]
  | .gate .nor _ _, h => by simp [isPositive] at h
  | .not _, h => by simp [isPositive] at h

lemma all_eq_true_iff : ∀ fs : List Formula, arePositive fs = true →
    (Truth.all (truths num doc fs) = some true ↔ allMatch num doc fs = true)
  | [], _ => by
    rw [truths, allMatch]
    simp
  | f :: fs, h => by
    simp only [arePositive, Bool.and_eq_true] at h
    rw [truths, allMatch, Truth.all_cons, Truth.both_eq_true, Bool.and_eq_true,
      truth_eq_true_iff f h.1, all_eq_true_iff fs h.2]

lemma any_eq_true_iff : ∀ fs : List Formula, arePositive fs = true →
    (Truth.any (truths num doc fs) = some true ↔ anyMatches num doc fs = true)
  | [], _ => by
    rw [truths, anyMatches]
    simp
  | f :: fs, h => by
    simp only [arePositive, Bool.and_eq_true] at h
    rw [truths, anyMatches, Truth.any_cons, Truth.either_eq_true, Bool.or_eq_true,
      truth_eq_true_iff f h.1, any_eq_true_iff fs h.2]

end

end Formula

/-! ## Expressions -/

/-- All of the expressions. -/
def conjunction : List Expr → Expr
  | [] => .lit (.bool true)
  | [e] => e
  | es => .logic .and es

/-- The connective of a gate. -/
def Gate.connective : Gate → Connective
  | .and => .and
  | .or => .or
  | .nor => .nor

/-- A test of a field as an expression. -/
def FieldTest.expr (f : FieldPath) : FieldTest → Expr
  | .compare op c => .compare op.comparison (.field f) (.lit c.literal)
  | .among negated first rest =>
    .compare (if negated then .notIn else .isIn) (.field f)
      (.lit (.array ((first :: rest).map Constant.literal)))

namespace Formula

mutual

/-- The expression of a formula. -/
def expr : Formula → Expr
  | .test field t => t.expr { path := field.path }
  | .conj fs => conjunction (exprs fs)
  | .gate op f fs => .logic op.connective (expr f :: exprs fs)
  | .not f => .logic .not [expr f]

/-- The expressions of formulas. -/
def exprs : List Formula → List Expr
  | [] => []
  | f :: fs => expr f :: exprs fs

end

end Formula

/-! ## Spelling -/

/-- A query operator on a field. -/
inductive QueryOperator where
  | test (t : FieldTest)
  | not (first : QueryOperator) (rest : List QueryOperator)

/-- An entry of a filter. -/
inductive Clause where
  /-- `{field: constant}` -/
  | equals (field : FieldName) (c : Constant)
  /-- `{field: {operators}}` -/
  | operators (field : FieldName) (first : QueryOperator) (rest : List QueryOperator)
  /-- `{$and: [filters]}` and so on -/
  | gate (op : Gate) (first : List Clause) (rest : List (List Clause))

/-- A filter: all of its entries must hold. -/
abbrev Filter := List Clause

namespace QueryOperator

mutual

/-- The entry that spells an operator. -/
def entry : QueryOperator → String × Json
  | .test (.compare op c) => (op.comparison.name, c.json)
  | .test (.among negated first rest) =>
    ((if negated then Comparison.notIn else .isIn).name,
      .arr ((first :: rest).map Constant.json))
  | .not q qs => (Connective.not.name, .obj (entry q :: entries qs))

/-- The entries that spell operators. -/
def entries : List QueryOperator → List (String × Json)
  | [] => []
  | q :: qs => entry q :: entries qs

end

mutual

/-- The formula of an operator on a field. -/
def formula (field : FieldName) : QueryOperator → Formula
  | .test t => .test field t
  | .not q qs => .not (.conj (formula field q :: formulas field qs))

/-- The formulas of operators on a field. -/
def formulas (field : FieldName) : List QueryOperator → List Formula
  | [] => []
  | q :: qs => formula field q :: formulas field qs

end

end QueryOperator

namespace Clause

mutual

/-- The entry that spells a clause. -/
def entry : Clause → String × Json
  | .equals field c => (field.text, c.json)
  | .operators field q qs => (field.text, .obj (QueryOperator.entries (q :: qs)))
  | .gate op f fs => (op.connective.name, .arr (.obj (entries f) :: documents fs))

/-- The entries that spell a filter. -/
def entries : List Clause → List (String × Json)
  | [] => []
  | c :: cs => entry c :: entries cs

/-- The documents that spell filters. -/
def documents : List (List Clause) → List Json
  | [] => []
  | f :: fs => .obj (entries f) :: documents fs

end

mutual

/-- The formula of a clause. -/
def formula : Clause → Formula
  | .equals field c => .test field (.compare .eq c)
  | .operators field q qs => .conj (QueryOperator.formulas field (q :: qs))
  | .gate op f fs => .gate op (.conj (formulas f)) (filterFormulas fs)

/-- The formulas of the clauses of a filter. -/
def formulas : List Clause → List Formula
  | [] => []
  | c :: cs => formula c :: formulas cs

/-- The formulas of filters. -/
def filterFormulas : List (List Clause) → List Formula
  | [] => []
  | f :: fs => .conj (formulas f) :: filterFormulas fs

end

end Clause

namespace Filter

/-- The document that spells a filter. -/
def toJson (f : Filter) : Json :=
  .obj (Clause.entries f)

/-- The formula of a filter. -/
def formula (f : Filter) : Formula :=
  .conj (Clause.formulas f)

end Filter

/-! ## Reading a filter -/

lemma allOf_eq (es : List Expr) : Grammar.allOf es = .ok (conjunction es) := by
  match es with
  | [] => rfl
  | [_] => rfl
  | _ :: _ :: _ => rfl

namespace FieldName

variable (f : FieldName)

/-- Every segment of a name is admissible. -/
lemma isSegment_of_mem {s : String} (h : s ∈ f.path.segments) : isSegment s = true := by
  have hvalid := f.valid
  simp only [Path.isFieldName, Bool.and_eq_true, List.all_eq_true] at hvalid
  exact hvalid.1.1 s h

/-- A name is not empty and starts neither with a dollar sign nor with a dot. -/
lemma exists_cons : ∃ c cs, f.text.toList = c :: cs ∧ c ≠ '$' ∧ c ≠ '.' := by
  have hsegment : ∀ s ∈ f.text.toList.splitOn '.', isSegment (String.ofList s) = true :=
    fun s hs => f.isSegment_of_mem (List.mem_map_of_mem hs)
  have hempty : isSegment (String.ofList []) = false := by decide
  cases htext : f.text.toList with
  | nil =>
    have h := hsegment [] (by rw [htext]; simp [List.splitOn])
    rw [hempty] at h
    cases h
  | cons c cs =>
    refine ⟨c, cs, rfl, ?_, ?_⟩
    · rintro rfl
      -- The first segment would start with a dollar sign.
      obtain ⟨s, hs⟩ : ∃ s, '$' :: s ∈ f.text.toList.splitOn '.' := by
        rw [htext, List.splitOn, List.splitOnP_cons_eq_if_modifyHead]
        obtain ⟨s, ss, hss⟩ := List.exists_cons_of_ne_nil (List.splitOnP_ne_nil (· == '.') cs)
        exact ⟨s, by simp [hss]⟩
      have h := hsegment _ hs
      simp [isSegment, isDigits] at h
    · rintro rfl
      have h := hsegment [] (by rw [htext, List.splitOn, List.splitOnP_cons_eq_if_modifyHead]; simp)
      rw [hempty] at h
      cases h

lemma isReference_text : isReference f.text = false := by
  obtain ⟨c, cs, hcs, hdollar, _⟩ := f.exists_cons
  simp [isReference, hcs, List.isPrefixOf, Ne.symm hdollar]

/-- The field that the name reads as. -/
lemma ofString_text : FieldPath.ofString f.text = .ok { path := f.path } := by
  obtain ⟨c, cs, hcs, hdollar, hdot⟩ := f.exists_cons
  have hname : String.ofList (c :: cs) = f.text := by rw [← hcs, String.ofList_toList]
  have hcheck : checkFieldName f.text = .ok () := by
    have hne : f.text.isEmpty = false := by
      rw [← hname]
      simp
    simp [checkFieldName, hne, f.valid, pure, Except.pure]
  simp [FieldPath.ofString, hcs, List.isPrefixOf, List.isPrefixOf?, Ne.symm hdollar, Ne.symm hdot,
    hname, hcheck, bind, Except.bind, pure, Except.pure, path]

end FieldName

lemma Constant.literal_phrase (c : Constant) (what : String) :
    (Phrase.ofJson c.json).literal what = .ok c.literal := by
  have hjson : (Phrase.ofJson c.json).json = c.json := by cases c.json <;> rfl
  rw [Phrase.literal, hjson, c.spelled]
  rfl

/-- The constants of a list are read as an array. -/
lemma Constant.ofItems?_map (cs : List Constant) :
    Literal.ofItems? (cs.map Constant.json) = some (cs.map Constant.literal) := by
  induction cs with
  | nil => rfl
  | cons c cs ih => simp [Literal.ofItems?, c.spelled, ih]

namespace QueryOperator

lemma name_reference (op : Comparison) : isReference op.name = true ∧ op.name ≠ "$options" := by
  cases op <;> exact ⟨by decide, by decide⟩

/-- The key of an operator is a reference, and not `$options`. -/
lemma entry_fst (q : QueryOperator) : isReference q.entry.1 = true ∧ q.entry.1 ≠ "$options" := by
  cases q with
  | test t =>
    cases t with
    | compare op c => exact name_reference op.comparison
    | among negated first rest => exact name_reference (if negated then .notIn else .isIn)
  | not q qs =>
    show isReference Connective.not.name = true ∧ Connective.not.name ≠ "$options"
    exact ⟨by decide, by decide⟩

lemma find?_entries (qs : List QueryOperator) :
    (Phrase.ofJsonEntries (entries qs)).find? (fun (key, _) => !isReference key) = none := by
  induction qs with
  | nil => rfl
  | cons q qs ih =>
    rw [entries, Phrase.ofJsonEntries]
    simp [q.entry_fst.1, ih]

lemma has_options (qs : List QueryOperator) :
    Phrases.has (Phrase.ofJsonEntries (entries qs)) "$options" = false := by
  induction qs with
  | nil => rfl
  | cons q qs ih =>
    have hne : ("$options" == q.entry.1) = false := beq_eq_false_iff_ne.2 (Ne.symm q.entry_fst.2)
    rw [entries, Phrase.ofJsonEntries]
    simp only [Phrases.has, List.lookup_cons, hne] at ih ⊢
    exact ih

/-- A test of a field is read as a comparison. -/
lemma queryOperator_test (field : FieldName) (ops : Phrases) (t : FieldTest) :
    Grammar.queryOperator field.text ops (test t).entry.1 (Phrase.ofJson (test t).entry.2) =
      .ok (some (t.expr { path := field.path })) := by
  cases t with
  | compare op c =>
    have hliteral := c.literal_phrase
    cases op <;>
      simp [entry, OrderOp.comparison, Comparison.name, Grammar.queryOperator, hliteral,
        Expr.ofField, field.ofString_text, Expr.ofCompare, Comparison.isMembership, FieldTest.expr,
        bind, Except.bind, pure, Except.pure] <;> rfl
  | among negated first rest =>
    have hliteral (what : String) :
        (Phrase.ofJson (.arr ((first :: rest).map Constant.json))).literal what =
          .ok (.array ((first :: rest).map Constant.literal)) := by
      have hitems := Constant.ofItems?_map (first :: rest)
      have hjson : Literal.ofJson? (Phrase.ofJson (.arr ((first :: rest).map Constant.json))).json =
          some (.array ((first :: rest).map Constant.literal)) := congrArg (·.map Literal.array) hitems
      rw [Phrase.literal, hjson]
      rfl
    cases negated <;>
      simp [entry, Comparison.name, Grammar.queryOperator, -List.map_cons, hliteral, Expr.ofField,
        field.ofString_text, FieldTest.expr, bind, Except.bind, pure, Except.pure] <;> rfl

/-- Operators of which each is read as a condition are read as all of these. -/
lemma queryOperators_of_mapM {field : FieldName} {qs : List QueryOperator} {es : List Expr}
    (h : (Phrase.ofJsonEntries (entries qs)).mapM (fun (name, value) => Grammar.queryOperator
      field.text (Phrase.ofJsonEntries (entries qs)) name value) = .ok (es.map some)) :
    Grammar.queryOperators (Phrase.ofJsonEntries (entries qs)) field.text =
      .ok (conjunction es) := by
  have hes : (es.map some).filterMap id = es := by simp [List.filterMap_map]
  simp only [Grammar.queryOperators, find?_entries, has_options, h, bind, Except.bind, hes]
  exact allOf_eq es

/-- One more operator that is read as a condition. -/
lemma mapM_queryOperator_cons {field : FieldName} {ops : Phrases} {q : QueryOperator} {e : Expr}
    {qs : List QueryOperator} {es : List Expr}
    (hq : Grammar.queryOperator field.text ops q.entry.1 (Phrase.ofJson q.entry.2) = .ok (some e))
    (hqs : (Phrase.ofJsonEntries (entries qs)).mapM
      (fun (name, value) => Grammar.queryOperator field.text ops name value) = .ok (es.map some)) :
    (Phrase.ofJsonEntries (entries (q :: qs))).mapM
      (fun (name, value) => Grammar.queryOperator field.text ops name value) =
        .ok ((e :: es).map some) := by
  rw [entries, Phrase.ofJsonEntries, List.mapM_cons]
  simp only [hq, hqs, bind, Except.bind, pure, Except.pure, List.map_cons]

mutual

/-- An operator on a field is read as its formula. -/
lemma queryOperator_entry (field : FieldName) (ops : Phrases) : ∀ q : QueryOperator,
    Grammar.queryOperator field.text ops q.entry.1 (Phrase.ofJson q.entry.2) =
      .ok (some (q.formula field).expr)
  | .test t => queryOperator_test field ops t
  | .not q qs => by
    let inner := Phrase.ofJsonEntries (entries (q :: qs))
    have hall := queryOperators_of_mapM (mapM_queryOperator_cons
      (queryOperator_entry field inner q) (mapM_queryOperator field inner qs))
    show (do
      let e ← Grammar.queryOperators inner field.text
      return some (← Expr.ofLogic .not [e])) = _
    rw [hall]
    rfl

/-- Operators on a field are read as their formulas. -/
lemma mapM_queryOperator (field : FieldName) (ops : Phrases) : ∀ qs : List QueryOperator,
    (Phrase.ofJsonEntries (entries qs)).mapM
      (fun (name, value) => Grammar.queryOperator field.text ops name value) =
        .ok ((Formula.exprs (formulas field qs)).map some)
  | [] => rfl
  | q :: qs => mapM_queryOperator_cons (queryOperator_entry field ops q)
      (mapM_queryOperator field ops qs)

end

end QueryOperator

namespace Clause

/-- An entry with the name of a field puts a condition on the field. -/
lemma filterEntry_text (field : FieldName) (p : Phrase) :
    Grammar.filterEntry field.text p = (do return some (← Grammar.fieldCondition field.text p)) := by
  have href := field.isReference_text
  unfold Grammar.filterEntry
  split
  · next h => rw [h] at href; exact absurd href (by decide)
  · next h => rw [h] at href; exact absurd href (by decide)
  · next h => rw [h] at href; exact absurd href (by decide)
  · next h => rw [h] at href; exact absurd href (by decide)
  · next h => rw [h] at href; exact absurd href (by decide)
  · rw [href]
    rfl

/-- A field with a constant is compared with it. -/
lemma fieldCondition_constant {field : FieldName} {p : Phrase} {l : Literal}
    (hobj : ∀ es, p.json ≠ .obj es) (hl : p.literal field.text = .ok l) :
    Grammar.fieldCondition field.text p =
      .ok (.compare .eq (.field { path := field.path }) (.lit l)) := by
  unfold Grammar.fieldCondition
  split
  · next es h => exact absurd h (hobj es)
  · simp [Expr.ofField, field.ofString_text, hl, bind, Except.bind, pure, Except.pure,
      Expr.ofCompare, Comparison.isMembership]

lemma filterEntry_equals (field : FieldName) (c : Constant) :
    Grammar.filterEntry field.text (Phrase.ofJson c.json) =
      .ok (some ((Clause.equals field c).formula).expr) := by
  have hobj : ∀ es, (Phrase.ofJson c.json).json ≠ .obj es := by
    intro es h
    have hspelled := c.spelled
    cases hjson : c.json with
    | obj _ =>
      rw [hjson] at hspelled
      cases hspelled
    | _ =>
      rw [hjson] at h
      cases h
  rw [filterEntry_text, fieldCondition_constant hobj (c.literal_phrase field.text)]
  rfl

lemma filterEntry_operators (field : FieldName) (q : QueryOperator) (qs : List QueryOperator) :
    Grammar.filterEntry field.text (Phrase.ofJson (.obj (QueryOperator.entries (q :: qs)))) =
      .ok (some ((Clause.operators field q qs).formula).expr) := by
  let inner := Phrase.ofJsonEntries (QueryOperator.entries (q :: qs))
  have hany : (inner.any fun (key, _) => isReference key) = true := by
    simp only [inner, QueryOperator.entries, Phrase.ofJsonEntries, List.any_cons]
    rw [q.entry_fst.1]
    rfl
  have hall := QueryOperator.queryOperators_of_mapM
    (QueryOperator.mapM_queryOperator field inner (q :: qs))
  have hcondition : Grammar.fieldCondition field.text
      (Phrase.ofJson (.obj (QueryOperator.entries (q :: qs)))) =
        .ok ((Clause.operators field q qs).formula).expr := by
    show (if (inner.any fun (key, _) => isReference key) = true then
      Grammar.queryOperators inner field.text else unsupported (.embeddedDocument field.text)) = _
    rw [if_pos hany, hall]
    rfl
  rw [filterEntry_text, hcondition]
  rfl

/-- Entries of which each is read as a condition are read as all of these. -/
lemma filter_of_mapM {cs : List Clause} {es : List Expr}
    (h : (Phrase.ofJsonEntries (entries cs)).mapM
      (fun (key, value) => Grammar.filterEntry key value) = .ok (es.map some)) :
    (Phrase.ofJson (.obj (entries cs))).filter = .ok (conjunction es) := by
  have hes : (es.map some).filterMap id = es := by simp [List.filterMap_map]
  show Grammar.filter (Phrase.ofJsonEntries (entries cs)) = _
  simp only [Grammar.filter, h, bind, Except.bind, hes]
  exact allOf_eq es

/-- A gate over filters that are read as expressions. -/
lemma filterEntry_gate (op : Gate) {js : List Json} {e : Expr} {es : List Expr}
    (h : (Phrase.ofJsonItems js).mapM (·.filter) = .ok (e :: es)) :
    Grammar.filterEntry op.connective.name (Phrase.ofJson (.arr js)) =
      .ok (some (.logic op.connective (e :: es))) := by
  have hentry : Grammar.filterEntry op.connective.name (Phrase.ofJson (.arr js)) = (do
      let operands ← (Phrase.ofJsonItems js).mapM (·.filter)
      return some (← Expr.ofLogic op.connective operands)) := by
    cases op <;> rfl
  rw [hentry, h]
  cases op <;> rfl

mutual

/-- An entry of a filter is read as its formula. -/
lemma filterEntry_entry : ∀ c : Clause,
    Grammar.filterEntry c.entry.1 (Phrase.ofJson c.entry.2) = .ok (some c.formula.expr)
  | .equals field c => filterEntry_equals field c
  | .operators field q qs => filterEntry_operators field q qs
  | .gate op f fs => by
    have hf := filter_of_mapM (mapM_filterEntry f)
    have hfs := mapM_filter fs
    refine filterEntry_gate op ?_
    rw [Phrase.ofJsonItems, List.mapM_cons]
    simp only [hf, hfs, bind, Except.bind, pure, Except.pure, Formula.expr]

/-- The entries of a filter are read as their formulas. -/
lemma mapM_filterEntry : ∀ cs : List Clause,
    (Phrase.ofJsonEntries (entries cs)).mapM (fun (key, value) => Grammar.filterEntry key value) =
      .ok ((Formula.exprs (formulas cs)).map some)
  | [] => rfl
  | c :: cs => by
    have hc := filterEntry_entry c
    have hcs := mapM_filterEntry cs
    rw [entries, Phrase.ofJsonEntries, List.mapM_cons]
    simp only [hc, hcs, bind, Except.bind, pure, Except.pure, formulas, Formula.exprs,
      List.map_cons]

/-- Filters are read as their formulas. -/
lemma mapM_filter : ∀ fs : List (List Clause),
    (Phrase.ofJsonItems (documents fs)).mapM (·.filter) =
      .ok (Formula.exprs (filterFormulas fs))
  | [] => rfl
  | f :: fs => by
    have hf := filter_of_mapM (mapM_filterEntry f)
    have hfs := mapM_filter fs
    rw [documents, Phrase.ofJsonItems, List.mapM_cons]
    simp only [hf, hfs, bind, Except.bind, pure, Except.pure, filterFormulas, Formula.exprs,
      Formula.expr]

end

end Clause

/-- A filter is read as the expression of its formula. -/
lemma parseFilter_toJson (f : Filter) : parseFilter f.toJson = .ok f.formula.expr :=
  Clause.filter_of_mapM (Clause.mapM_filterEntry f)

end PipelineSql
