import PipelineSql.Proofs.TextMeanings

/-!
# Comparisons of a field with constants

A field is compared with a constant, in either order, or looked for in a list of constants. Where
null is among the constants, or the comparison is a negative one, it has an answer for null, and the
condition that is rendered has null tests. Each has the truth that three-valued logic gives the
comparison, and compares nothing but the field and constants other than null.
-/

namespace PipelineSql

open Render

variable {α : Type} [LinearOrder α] {env : Env} {f : FieldPath} {values : List Literal}

/-! ## Atoms -/

/-- The constants other than null. -/
def nonNull (ks : List Constant) : List Constant :=
  ks.filter fun k => !k.literal.isNull

/-- A comparison of a field with scalar constants. -/
inductive FieldAtom where
  /-- The field comes first. -/
  | test (t : FieldTest)
  /-- The constant comes first, as it may in an expression. -/
  | flipped (op : OrderOp) (k : Constant)
  /-- An expression that looks for the field in a list, which may be empty. -/
  | contained (ks : List Constant)

namespace FieldAtom

/-- The constants of an atom. -/
def constants : FieldAtom → List Constant
  | .test t => t.constants
  | .flipped _ k => [k]
  | .contained ks => ks

/-- The constants other than null in the list of an atom. -/
def listed : FieldAtom → List Constant
  | .test (.among _ first rest) => nonNull (first :: rest)
  | .contained ks => nonNull ks
  | .test (.compare ..) | .flipped .. => []

/-- The expression of an atom. -/
def expr (f : FieldPath) : FieldAtom → Expr
  | .test t => t.expr f
  | .flipped op k => .compare op.comparison (.lit k.literal) (.field f)
  | .contained ks =>
    .array .contains (some (.lit (.array (ks.map Constant.literal)))) none [.field f] none

/-- Does a value match? -/
def matchesValue (num : Number → α) (v : Scalar α) : FieldAtom → Bool
  | .test t => t.matchesValue num v
  | .flipped op k => (k.value num).matchesOp op v
  | .contained ks => ks.any fun k => v.matchesOp .eq (k.value num)

/-- Has the atom an answer for null? The negative ones have, and those with null among the constants
or with nothing to compare. -/
def decidesNull : FieldAtom → Bool
  | .test t => t.decidesNull
  | .flipped op k => op = .ne ∨ k.literal.isNull
  | .contained ks => ks.isEmpty || ks.any fun k => k.literal.isNull

/-- Is the answer for null lost? It is where `$ne` has a constant first. -/
def losesNull : FieldAtom → Bool
  | .flipped op k => op = .ne && !k.literal.isNull
  | .test _ | .contained _ => false

/-- The truth of an atom: unknown for null, unless there is an answer for null. -/
def truth (num : Number → α) (v : Scalar α) (t : FieldAtom) : Truth :=
  if v.isNull && (!t.decidesNull || t.losesNull) then none else some (t.matchesValue num v)

lemma truth_test (num : Number → α) (v : Scalar α) (t : FieldTest) :
    (FieldAtom.test t).truth num v = t.truth num v := by
  simp [truth, FieldTest.truth, decidesNull, losesNull, matchesValue]

end FieldAtom

/-! ## Shapes of conditions -/

/-- The condition that compares two texts. -/
def OrderOp.condition (op : OrderOp) (l r : Fragment) : Condition :=
  if op = .ne then .any [.isNull l, .relation .ne l r] else .relation op.comparison l r

/-- The condition that compares a text with null. -/
def OrderOp.nullTest (op : OrderOp) (l : Fragment) : Condition :=
  if op = .gt ∨ op = .lt then .constant false
  else if op = .ne then .isNotNull l
  else .isNull l

/-- The condition that looks for a text in a list, to which null may belong. -/
def listTest (l : Fragment) (items : List Fragment) (negated hasNull : Bool) : Condition :=
  let listed := Condition.among l items negated
  if negated then if hasNull then .all [.isNotNull l, listed] else .any [.isNull l, listed]
  else if hasNull then .any [listed, .isNull l] else listed

/-- The type as which a field is read beside constants. -/
def typeBeside (env : Env) (ks : List Constant) : Option JsonType :=
  Literal.firstType? env.dialect (ks.map Constant.literal)

lemma succeeds_nullComparison (env : Env) (f : FieldPath) (op : OrderOp) :
    (nullComparison op.comparison (Reading.ofExpr (.field f))).Succeeds env
      fun _ c => c = op.nullTest (env.fieldText f none) := by
  have hfield := succeeds_fieldText env f none
  cases op with
  | gt | lt => exact succeeds_pure fun _ => rfl
  | ne | eq | gte | lte =>
    refine succeeds_bind hfield fun g => succeeds_pure fun _ hg => ?_
    rw [hg]
    rfl

/-- A comparison of two values, of which one is a constant. -/
lemma succeeds_valueComparison {left right : Reading} {type : Option JsonType}
    {P Q : List Literal → Fragment → Prop} (op : OrderOp)
    (htype : ((right.expr.literal? >>= Literal.type? env.dialect).or
      (left.expr.literal? >>= Literal.type? env.dialect)) = type)
    (hleft : (left.value type).Succeeds env P) (hright : (right.value type).Succeeds env Q) :
    (valueComparison op.comparison left right).Succeeds env
      fun values c => ∃ l r, P values l ∧ Q values r ∧ c = op.condition l r := by
  refine succeeds_read ?_
  simp only [htype]
  refine succeeds_bind hleft fun l => succeeds_bind hright fun r => ?_
  cases op <;> exact succeeds_pure fun _ hr hl => ⟨l, r, hl, hr, rfl⟩

/-- A comparison of a field with a constant: a null test, or a comparison of values. -/
lemma comparison_eq (op : OrderOp) (f : FieldPath) (c : Constant) :
    comparison op.comparison (Reading.ofExpr (.field f)) (Reading.ofExpr (.lit c.literal)) =
      if c.literal.isNull then nullComparison op.comparison (Reading.ofExpr (.field f))
      else valueComparison op.comparison (Reading.ofExpr (.field f))
        (Reading.ofExpr (.lit c.literal)) := by
  have hscalar := c.scalar
  have hmember : op.comparison.isMembership = false := by cases op <;> rfl
  rw [Reading.ofExpr, Reading.ofExpr]
  simp only [comparison, hmember, Bool.false_eq_true, if_false]
  cases hl : c.literal with
  | array items =>
    rw [hl] at hscalar
    cases hscalar
  | _ => rfl

/-- A comparison of a constant with a field: a null test, or a comparison of values. -/
lemma comparison_flipped_eq (op : OrderOp) (k : Constant) (f : FieldPath) :
    comparison op.comparison (Reading.ofExpr (.lit k.literal)) (Reading.ofExpr (.field f)) =
      if k.literal.isNull then nullComparison op.comparison (Reading.ofExpr (.field f))
      else valueComparison op.comparison (Reading.ofExpr (.lit k.literal))
        (Reading.ofExpr (.field f)) := by
  have hmember : op.comparison.isMembership = false := by cases op <;> rfl
  rw [Reading.ofExpr, Reading.ofExpr]
  simp only [comparison, hmember, Bool.false_eq_true, if_false]
  cases k.literal <;> rfl

/-- Constants that are all null make a null test, others a list. -/
lemma succeeds_membership (env : Env) (f : FieldPath) (ks : List Constant) (negated : Bool) :
    (membership (Reading.ofExpr (.field f)) (ks.map Constant.literal) negated).Succeeds env
      fun values c =>
        nonNull ks = [] ∧ c = (if negated then .isNotNull (env.fieldText f none)
            else .isNull (env.fieldText f none)) ∨
          nonNull ks ≠ [] ∧
            ∃ items, List.Forall₂ (Constant.WrittenAs values) (nonNull ks) items ∧
              c = listTest (env.fieldText f (typeBeside env (nonNull ks))) items negated
                (ks.any fun k => k.literal.isNull) := by
  have hfilter : (ks.map Constant.literal).filter (fun l => !l.isNull) =
      (nonNull ks).map Constant.literal := by
    rw [List.filter_map]
    rfl
  have hany : (ks.map Constant.literal).any Literal.isNull = ks.any fun k => k.literal.isNull := by
    rw [List.any_map]
    rfl
  unfold membership
  rw [hfilter, hany]
  refine succeeds_read ?_
  refine succeeds_bind (succeeds_fieldText env f (typeBeside env (nonNull ks))) fun l => ?_
  rw [List.isEmpty_map]
  cases hempty : (nonNull ks).isEmpty with
  | true =>
    refine succeeds_pure fun _ hl => .inl ⟨List.isEmpty_iff.1 hempty, ?_⟩
    rw [hl, typeBeside, List.isEmpty_iff.1 hempty]
    rfl
  | false =>
    refine succeeds_bind (succeeds_literalTexts env (nonNull ks)) fun items => ?_
    have hne : nonNull ks ≠ [] := by simpa using hempty
    cases negated <;> cases ks.any fun k => k.literal.isNull
    all_goals
      refine succeeds_pure fun _ hitems hl => ?_
      rw [hl]
      exact .inr ⟨hne, items, hitems, rfl⟩

/-! ## Truth of the shapes -/

/-- Null is different from all but null, and nothing else. -/
lemma Scalar.matchesOp_null (op : OrderOp) {w : Scalar α} (hw : w.isNull = false) :
    Scalar.matchesOp op .null w = decide (op = .ne) ∧
      Scalar.matchesOp op w .null = decide (op = .ne) := by
  cases w with
  | null => cases hw
  | _ => exact ⟨rfl, rfl⟩

/-- Equality with null is that of being null. -/
lemma Scalar.matchesOp_eq_of_isNull {v w : Scalar α} (h : v.isNull = true ∨ w.isNull = true) :
    v.matchesOp .eq w = (v.isNull && w.isNull) := by
  cases v <;> cases w <;> simp_all [isNull, matchesOp]

/-- Which of several constants a value equals: null those that are null, another value one of the
rest. -/
lemma any_constants (num : Number → α) (v : Scalar α) (cs : List Constant) :
    (cs.any fun c => v.matchesOp .eq (c.value num)) =
      if v.isNull then cs.any fun c => c.literal.isNull
      else ((cs.filter fun c => !c.literal.isNull).map (Constant.value num)).any
        fun w => v.matchesOp .eq w := by
  rw [List.any_map, List.any_filter]
  split
  · next hv =>
    congr 1
    funext c
    rw [Scalar.matchesOp_eq_of_isNull (.inl hv), hv, c.isNull_value, Bool.true_and]
  · next hv =>
    congr 1
    funext c
    cases hc : c.literal.isNull with
    | true =>
      rw [Scalar.matchesOp_eq_of_isNull (.inr (by rw [c.isNull_value, hc]))]
      simp [Bool.eq_false_iff.2 hv]
    | false => simp

namespace Meaning

variable {μ : Meaning α} {u v w : Scalar α} {l r : Fragment}

lemma truth?_nullTest (op : OrderOp) (hl : μ.value? l = some u) (hu : u.isNull = v.isNull) :
    μ.truth? (op.nullTest l) = some (some (v.matchesOp op .null)) := by
  cases op with
  | gt | lt => cases v <;> rfl
  | ne =>
    refine (truth?_isNotNull hl).trans ?_
    rw [hu]
    cases v <;> rfl
  | eq | gte | lte =>
    refine (truth?_isNull hl).trans ?_
    rw [hu]
    cases v <;> rfl

/-- A value compared with a constant. -/
lemma truth?_condition (op : OrderOp) (hcomp : v.Comparable w) (hw : w.isNull = false)
    (hl : μ.value? l = some (v.inSql μ.dialect)) (hr : μ.value? r = some (w.inSql μ.dialect)) :
    μ.truth? (op.condition l r) =
      some (if v.isNull && op ≠ .ne then none else some (v.matchesOp op w)) := by
  have hrelation := (truth?_relation op hcomp hw hl hr).1
  cases op with
  | ne =>
    refine (truth?_any_pair (truth?_isNull hl) hrelation).trans ?_
    rw [Scalar.isNull_inSql]
    cases v with
    | null => simp [Scalar.isNull, (Scalar.matchesOp_null .ne hw).1]
    | _ => simp [Scalar.isNull]
  | _ =>
    refine hrelation.trans ?_
    simp

/-- A constant compared with a value: the null test says nothing. -/
lemma truth?_condition_flipped (op : OrderOp) (hcomp : v.Comparable w) (hw : w.isNull = false)
    (hl : μ.value? l = some (v.inSql μ.dialect)) (hr : μ.value? r = some (w.inSql μ.dialect)) :
    μ.truth? (op.condition r l) = some (if v.isNull then none else some (w.matchesOp op v)) := by
  have hrelation := (truth?_relation op hcomp hw hl hr).2
  cases op with
  | ne =>
    -- The null test is on the left, where the constant is.
    refine (truth?_any_pair (truth?_isNull hr) hrelation).trans ?_
    rw [Scalar.isNull_inSql, hw, Truth.false_either]
  | _ => exact hrelation

lemma truth?_listTest {items : List Fragment} {ks : List Constant} (negated hasNull : Bool)
    (hne : ks ≠ [])
    (hks : ∀ k ∈ ks, v.Comparable (k.value μ.num) ∧ k.literal.isNull = false)
    (hl : μ.value? l = some (v.inSql μ.dialect))
    (hitems : List.Forall₂ (Constant.WrittenAs μ.values) ks items) :
    μ.truth? (listTest l items negated hasNull) =
      some (if v.isNull && !(negated || hasNull) then none
        else some (negated != if v.isNull then hasNull
          else (ks.map (Constant.value μ.num)).any fun w => v.matchesOp .eq w)) := by
  have hlisted := truth?_among negated hne hks hl hitems
  have hnull := truth?_isNull hl
  have hnotNull := truth?_isNotNull hl
  rw [Scalar.isNull_inSql] at hnull hnotNull
  cases negated with
  | false =>
    cases hasNull with
    | false =>
      refine hlisted.trans ?_
      cases v.isNull <;> simp
    | true =>
      refine (truth?_any_pair hlisted hnull).trans ?_
      cases v.isNull <;> simp
  | true =>
    cases hasNull with
    | false =>
      refine (truth?_any_pair hnull hlisted).trans ?_
      cases v.isNull <;> simp
    | true =>
      refine (truth?_all_pair hnotNull hlisted).trans ?_
      cases v.isNull <;> simp

end Meaning

/-! ## Rendered atoms -/

namespace Condition

mutual

/-- The texts that a condition compares with others. -/
def compared : Condition → List Fragment
  | .relation _ l r => [l, r]
  | .among f fs _ => f :: fs
  | .both c d => compared c ++ compared d
  | .all cs | .any cs | .none cs => comparedIn cs
  | .constant _ | .isNull _ | .isNotNull _ | .test _ | .testNot _ => []

/-- The texts that conditions compare with others. -/
def comparedIn : List Condition → List Fragment
  | [] => []
  | c :: cs => compared c ++ comparedIn cs

end

mutual

/-- The lists in which a condition looks for values. -/
def lists : Condition → List (List Fragment)
  | .among _ fs _ => [fs]
  | .both c d => lists c ++ lists d
  | .all cs | .any cs | .none cs => listsIn cs
  | .constant _ | .isNull _ | .isNotNull _ | .relation .. | .test _ | .testNot _ => []

/-- The lists in which conditions look for values. -/
def listsIn : List Condition → List (List Fragment)
  | [] => []
  | c :: cs => lists c ++ listsIn cs

end

end Condition

namespace FieldAtom

variable {t : FieldAtom} {op : OrderOp} {k : Constant} {g : Fragment}

/-- What is to be said of the condition of an atom: it compares nothing but the field and constants
other than null, of which those in a list stand there once each and in their order, and it has the
truth of the atom. -/
structure RenderedAs (t : FieldAtom) (env : Env) (f : FieldPath) (values : List Literal)
    (c : Condition) : Prop where
  compared : ∀ g ∈ c.compared, (∃ type, g = env.fieldText f type) ∨
    ∃ k ∈ t.constants, k.literal.isNull = false ∧ k.WrittenAs values g
  lists : ∃ items, List.Forall₂ (Constant.WrittenAs values) t.listed items ∧
    c.lists = if t.listed.isEmpty then [] else [items]
  truth : ∀ {α : Type} [LinearOrder α] (μ : Meaning α) (v : Scalar α), μ.values = values →
    μ.Reads env f t.constants v → μ.truth? c = some (t.truth μ.num v)

lemma renderedAs_nullTest (op : OrderOp) (hlisted : t.listed = [])
    (htruth : ∀ {α : Type} [LinearOrder α] (num : Number → α) (v : Scalar α),
      t.truth num v = some (v.matchesOp op .null)) :
    t.RenderedAs env f values (op.nullTest (env.fieldText f none)) where
  compared := by
    intro g hg
    cases op <;> cases hg
  lists := by
    rw [hlisted]
    refine ⟨[], .nil, ?_⟩
    cases op <;> rfl
  truth := by
    intro α _ μ v _ hreads
    obtain ⟨u, hl, hu⟩ := hreads.presence
    rw [Meaning.truth?_nullTest op hl hu, htruth]

lemma compared_condition (op : OrderOp) (l r : Fragment) (hg : g ∈ (op.condition l r).compared) :
    g = l ∨ g = r := by
  cases op <;> simpa [OrderOp.condition, Condition.compared, Condition.comparedIn] using hg

lemma lists_condition (op : OrderOp) (l r : Fragment) : (op.condition l r).lists = [] := by
  cases op <;> rfl

lemma truth_compare_of_isNull (op : OrderOp) (hk : k.literal.isNull = true) (num : Number → α)
    (v : Scalar α) :
    (test (.compare op k)).truth num v = some (v.matchesOp op .null) ∧
      (flipped op k).truth num v = some (v.matchesOp op .null) := by
  have hvalue : k.value num = .null := Scalar.eq_null (by rw [k.isNull_value, hk])
  have hsymm : Scalar.matchesOp op .null v = v.matchesOp op .null := by cases v <;> rfl
  simp [truth, decidesNull, FieldTest.decidesNull, losesNull, matchesValue, FieldTest.matchesValue,
    hk, hvalue, hsymm]

lemma renderedAs_compare (hk : k.literal.isNull = false) (hg : k.WrittenAs values g) :
    (test (.compare op k)).RenderedAs env f values
      (op.condition (env.fieldText f (Literal.type? env.dialect k.literal)) g) where
  compared := by
    intro g' hg'
    rcases compared_condition op _ _ hg' with rfl | rfl
    · exact .inl ⟨_, rfl⟩
    · exact .inr ⟨k, List.mem_cons_self, hk, hg⟩
  lists := ⟨[], .nil, lists_condition op _ _⟩
  truth := by
    intro α _ μ v hvalues hreads
    subst hvalues
    rw [Meaning.truth?_condition op (hreads.comparable k List.mem_cons_self)
      (by rw [k.isNull_value, hk]) (hreads.typed k List.mem_cons_self hk) (μ.value?_constant hg)]
    simp [truth, decidesNull, FieldTest.decidesNull, losesNull, matchesValue,
      FieldTest.matchesValue, hk]

lemma renderedAs_flipped (hk : k.literal.isNull = false) (hg : k.WrittenAs values g) :
    (flipped op k).RenderedAs env f values
      (op.condition g (env.fieldText f (Literal.type? env.dialect k.literal))) where
  compared := by
    intro g' hg'
    rcases compared_condition op _ _ hg' with rfl | rfl
    · exact .inr ⟨k, List.mem_cons_self, hk, hg⟩
    · exact .inl ⟨_, rfl⟩
  lists := ⟨[], .nil, lists_condition op _ _⟩
  truth := by
    intro α _ μ v hvalues hreads
    subst hvalues
    rw [Meaning.truth?_condition_flipped op (hreads.comparable k List.mem_cons_self)
      (by rw [k.isNull_value, hk]) (hreads.typed k List.mem_cons_self hk) (μ.value?_constant hg)]
    by_cases hop : op = .ne <;> simp [truth, decidesNull, losesNull, matchesValue, hk, hop]

lemma exists_writtenAs {ks : List Constant} {items : List Fragment}
    (h : List.Forall₂ (Constant.WrittenAs values) ks items) (hg : g ∈ items) :
    ∃ k ∈ ks, k.WrittenAs values g := by
  induction h with
  | nil => cases hg
  | @cons k item ks items hk _ ih =>
    rcases List.mem_cons.1 hg with rfl | hg
    · exact ⟨k, List.mem_cons_self, hk⟩
    · obtain ⟨k', hk', hwritten⟩ := ih hg
      exact ⟨k', List.mem_cons_of_mem k hk', hwritten⟩

lemma compared_listTest {l : Fragment} {items : List Fragment} {negated hasNull : Bool}
    (hg : g ∈ (listTest l items negated hasNull).compared) : g = l ∨ g ∈ items := by
  cases negated <;> cases hasNull <;>
    simpa [listTest, Condition.compared, Condition.comparedIn] using hg

lemma lists_listTest (l : Fragment) (items : List Fragment) (negated hasNull : Bool) :
    (listTest l items negated hasNull).lists = [items] := by
  cases negated <;> cases hasNull <;> rfl

/-- The truth of membership: null is looked for among the nulls, and other values among the rest. -/
lemma truth_among (num : Number → α) (v : Scalar α) (negated : Bool) (first : Constant)
    (rest : List Constant) :
    (test (.among negated first rest)).truth num v =
      if v.isNull && !(negated || (first :: rest).any fun k => k.literal.isNull) then none
      else some (negated != if v.isNull then (first :: rest).any fun k => k.literal.isNull
        else ((nonNull (first :: rest)).map (Constant.value num)).any
          fun w => v.matchesOp .eq w) := by
  rw [truth_test, FieldTest.truth, FieldTest.decidesNull, FieldTest.matchesValue, any_constants]
  rfl

/-- Constants that are all null: the field is looked for by a null test. -/
lemma renderedAs_nulls {negated : Bool} {first : Constant} {rest : List Constant}
    (hnull : nonNull (first :: rest) = []) :
    (test (.among negated first rest)).RenderedAs env f values
      (if negated then .isNotNull (env.fieldText f none) else .isNull (env.fieldText f none)) where
  compared := by
    intro g hg
    cases negated <;> cases hg
  lists := by
    rw [listed, hnull]
    refine ⟨[], .nil, ?_⟩
    cases negated <;> rfl
  truth := by
    intro α _ μ v _ hreads
    obtain ⟨u, hl, hu⟩ := hreads.presence
    have hany : ((first :: rest).any fun k => k.literal.isNull) = true := by
      have hfirst := List.filter_eq_nil_iff.1 hnull first List.mem_cons_self
      simp only [Bool.not_eq_true', Bool.not_eq_false] at hfirst
      simp [hfirst]
    have htruth : (test (.among negated first rest)).truth μ.num v =
        some (negated != v.isNull) := by
      rw [truth_among, hany, hnull]
      cases v.isNull <;> simp
    rw [htruth, ← hu]
    cases negated with
    | false => simpa using Meaning.truth?_isNull hl
    | true => simpa using Meaning.truth?_isNotNull hl

lemma typeBeside_nonNull {k : Constant} {ks : List Constant} (hk : k.literal.isNull = false) :
    typeBeside env (k :: ks) = Literal.type? env.dialect k.literal := by
  have hscalar := k.scalar
  rw [typeBeside, List.map_cons, Literal.firstType?]
  cases hl : k.literal with
  | null =>
    rw [hl] at hk
    cases hk
  | array items =>
    rw [hl] at hscalar
    cases hscalar
  | _ => rfl

lemma renderedAs_list {negated : Bool} {first : Constant} {rest : List Constant}
    {items : List Fragment} (hne : nonNull (first :: rest) ≠ [])
    (hitems : List.Forall₂ (Constant.WrittenAs values) (nonNull (first :: rest)) items) :
    (test (.among negated first rest)).RenderedAs env f values
      (listTest (env.fieldText f (typeBeside env (nonNull (first :: rest)))) items negated
        ((first :: rest).any fun k => k.literal.isNull)) where
  compared := by
    intro g hg
    rcases compared_listTest hg with rfl | hg
    · exact .inl ⟨_, rfl⟩
    · obtain ⟨k, hk, hwritten⟩ := exists_writtenAs hitems hg
      obtain ⟨hmem, hnull⟩ := List.mem_filter.1 hk
      exact .inr ⟨k, hmem, by simpa using hnull, hwritten⟩
  lists := by
    refine ⟨items, hitems, ?_⟩
    rw [lists_listTest, if_neg (by simpa [listed] using hne)]
  truth := by
    intro α _ μ v hvalues hreads
    subst hvalues
    have hlisted : ∀ k ∈ nonNull (first :: rest), k ∈ first :: rest ∧ k.literal.isNull = false := by
      intro k hk
      obtain ⟨hmem, hnull⟩ := List.mem_filter.1 hk
      exact ⟨hmem, by simpa using hnull⟩
    have hfield : μ.value? (env.fieldText f (typeBeside env (nonNull (first :: rest)))) =
        some (v.inSql μ.dialect) := by
      cases hks : nonNull (first :: rest) with
      | nil => exact absurd hks hne
      | cons k ks =>
        obtain ⟨hmem, hk⟩ := hlisted k (by rw [hks]; exact List.mem_cons_self)
        rw [typeBeside_nonNull hk]
        exact hreads.typed k hmem hk
    rw [truth_among]
    exact Meaning.truth?_listTest negated _ hne
      (fun k hk => ⟨hreads.comparable k (hlisted k hk).1, (hlisted k hk).2⟩) hfield hitems

lemma succeeds_condition_compare {op : Comparison} {l r : Expr}
    {P : List Literal → Condition → Prop}
    (h : (comparison op (Reading.ofExpr l) (Reading.ofExpr r)).Succeeds env P) :
    (Expr.compare op l r).condition.Succeeds env P := by
  rw [Expr.condition, Reading.ofExpr]
  exact succeeds_checked rfl h

/-- A field compared with a constant. -/
lemma succeeds_compare (env : Env) (f : FieldPath) (op : OrderOp) (k : Constant) :
    ((test (.compare op k)).expr f).condition.Succeeds env
      fun values c => (test (.compare op k)).RenderedAs env f values c := by
  refine succeeds_condition_compare ?_
  rw [comparison_eq]
  split
  · next hk =>
    refine (succeeds_nullComparison env f op).imp ?_
    rintro values _ rfl
    exact renderedAs_nullTest op rfl fun num v => (truth_compare_of_isNull op hk num v).1
  · next hk =>
    have htype : (((Reading.ofExpr (.lit k.literal)).expr.literal? >>=
        Literal.type? env.dialect).or ((Reading.ofExpr (.field f)).expr.literal? >>=
        Literal.type? env.dialect)) = Literal.type? env.dialect k.literal := by
      rw [Reading.ofExpr, Reading.ofExpr]
      exact Option.or_none
    refine (succeeds_valueComparison op htype (succeeds_fieldText env f _)
      (succeeds_value_constant (succeeds_literalText env k) _)).imp ?_
    rintro values _ ⟨_, g, rfl, hg, rfl⟩
    exact renderedAs_compare (Bool.eq_false_iff.2 hk) hg

/-- A constant compared with a field. -/
lemma succeeds_flipped (env : Env) (f : FieldPath) (op : OrderOp) (k : Constant) :
    ((flipped op k).expr f).condition.Succeeds env
      fun values c => (flipped op k).RenderedAs env f values c := by
  refine succeeds_condition_compare ?_
  rw [comparison_flipped_eq]
  split
  · next hk =>
    refine (succeeds_nullComparison env f op).imp ?_
    rintro values _ rfl
    exact renderedAs_nullTest op rfl fun num v => (truth_compare_of_isNull op hk num v).2
  · next hk =>
    have htype : (((Reading.ofExpr (.field f)).expr.literal? >>=
        Literal.type? env.dialect).or ((Reading.ofExpr (.lit k.literal)).expr.literal? >>=
        Literal.type? env.dialect)) = Literal.type? env.dialect k.literal := by
      rw [Reading.ofExpr, Reading.ofExpr]
      exact Option.none_or
    refine (succeeds_valueComparison op htype
      (succeeds_value_constant (succeeds_literalText env k) _) (succeeds_fieldText env f _)).imp ?_
    rintro values _ ⟨g, _, hg, rfl, rfl⟩
    exact renderedAs_flipped (Bool.eq_false_iff.2 hk) hg

lemma succeeds_among (env : Env) (f : FieldPath) (negated : Bool) (first : Constant)
    (rest : List Constant) :
    (membership (Reading.ofExpr (.field f)) ((first :: rest).map Constant.literal) negated).Succeeds
      env fun values c => (test (.among negated first rest)).RenderedAs env f values c := by
  refine (succeeds_membership env f (first :: rest) negated).imp ?_
  rintro values _ (⟨hnull, rfl⟩ | ⟨hne, items, hitems, rfl⟩)
  · exact renderedAs_nulls hnull
  · exact renderedAs_list hne hitems

lemma truth_contained (num : Number → α) (v : Scalar α) (first : Constant) (rest : List Constant) :
    (contained (first :: rest)).truth num v = (test (.among false first rest)).truth num v := by
  simp [truth, decidesNull, FieldTest.decidesNull, losesNull, matchesValue, FieldTest.matchesValue]

/-- Nothing is in an empty list. -/
lemma renderedAs_empty : (contained []).RenderedAs env f values (.constant false) where
  compared := by
    intro g hg
    cases hg
  lists := ⟨[], .nil, rfl⟩
  truth := by
    intro α _ μ v _ _
    cases hv : v.isNull <;>
      simp [Meaning.truth?, Condition.truth?, truth, decidesNull, losesNull, matchesValue]

lemma succeeds_condition_contained {ks : List Constant} {P : List Literal → Condition → Prop}
    (h : (containment (Reading.ofExpr (.lit (.array (ks.map Constant.literal))))
      (Reading.ofExpr (.field f))).Succeeds env P) :
    ((contained ks).expr f).condition.Succeeds env P := by
  rw [Expr.condition, expr, Reading.ofExpr]
  refine succeeds_checked rfl ?_
  exact h

/-- Every atom is rendered, by a condition of which that can be said. -/
lemma succeeds_condition (env : Env) (f : FieldPath) (t : FieldAtom) :
    (t.expr f).condition.Succeeds env fun values c => t.RenderedAs env f values c := by
  cases t with
  | test t =>
    cases t with
    | compare op k => exact succeeds_compare env f op k
    | among negated first rest =>
      refine succeeds_condition_compare ?_
      have hcomparison : comparison (if negated then .notIn else .isIn)
          (Reading.ofExpr (.field f))
          (Reading.ofExpr (.lit (.array ((first :: rest).map Constant.literal)))) =
            membership (Reading.ofExpr (.field f)) ((first :: rest).map Constant.literal)
              negated := by
        rw [Reading.ofExpr, Reading.ofExpr]
        cases negated <;> rfl
      rw [hcomparison]
      exact succeeds_among env f negated first rest
  | flipped op k => exact succeeds_flipped env f op k
  | contained ks =>
    refine succeeds_condition_contained ?_
    cases ks with
    | nil =>
      have hcontainment :
          containment (Reading.ofExpr (.lit (.array (List.map Constant.literal []))))
            (Reading.ofExpr (.field f)) = pure (.constant false) := by
        rw [Reading.ofExpr]
        rfl
      rw [hcontainment]
      exact succeeds_pure fun _ => renderedAs_empty
    | cons first rest =>
      have hcontainment : containment
          (Reading.ofExpr (.lit (.array ((first :: rest).map Constant.literal))))
          (Reading.ofExpr (.field f)) =
            membership (Reading.ofExpr (.field f)) ((first :: rest).map Constant.literal)
              false := by
        rw [Reading.ofExpr]
        rfl
      rw [hcontainment]
      refine (succeeds_among env f false first rest).imp fun values c h => ?_
      refine ⟨h.compared, h.lists, fun μ v hvalues hreads => ?_⟩
      rw [truth_contained]
      exact h.truth μ v hvalues hreads

end FieldAtom

end PipelineSql
