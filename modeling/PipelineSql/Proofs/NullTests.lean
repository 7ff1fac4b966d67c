import PipelineSql.Proofs.FilterMeaning

/-!
# Comparisons with absent fields

An absent field is null in SQL, where a comparison with null is unknown. So a comparison of a field
with constants is rendered with null tests beside it, or as a null test.

Main result: the condition is true of exactly the values that match, and it is known where the
comparison has an answer for null, unless `$ne` compares a constant with a field in this order. Then
the null test is on the constant, and the condition is unknown where the field is absent.
-/

namespace PipelineSql

variable {α : Type} [LinearOrder α]

namespace FieldAtom

/-- Null does not match where there is no answer for it. -/
lemma matchesValue_null {num : Number → α} {t : FieldAtom} (h : t.decidesNull = false) :
    t.matchesValue num .null = false := by
  cases t with
  | test t => exact FieldTest.matchesValue_null h
  | flipped op k =>
    simp only [decidesNull, decide_eq_false_iff_not, not_or, Bool.not_eq_true] at h
    rw [matchesValue, (Scalar.matchesOp_null op (by rw [k.isNull_value, h.2])).2]
    exact decide_eq_false h.1
  | contained ks =>
    simp only [decidesNull, Bool.or_eq_false_iff] at h
    rw [matchesValue, ← h.2]
    refine congrArg _ (funext fun k => ?_)
    rw [Scalar.matchesOp_eq_of_isNull (.inl rfl), k.isNull_value]
    rfl

/-- An answer that is lost was that null matches. -/
lemma matchesValue_null_of_loses {num : Number → α} {t : FieldAtom} (h : t.losesNull = true) :
    t.matchesValue num .null = true := by
  cases t with
  | flipped op k =>
    simp only [losesNull, Bool.and_eq_true, decide_eq_true_eq, Bool.not_eq_true'] at h
    obtain ⟨rfl, hk⟩ := h
    exact (Scalar.matchesOp_null .ne (by rw [k.isNull_value, hk])).2
  | _ => cases h

/-- An atom is true of what matches, but for null where the answer for it is lost. -/
lemma truth_eq_true_iff (num : Number → α) (v : Scalar α) (t : FieldAtom) :
    (t.truth num v = some true ↔ t.matchesValue num v = true) ↔
      ¬ (t.losesNull = true ∧ v.isNull = true) := by
  unfold truth
  cases v with
  | null =>
    cases hloses : t.losesNull with
    | true => simp [matchesValue_null_of_loses hloses, Scalar.isNull]
    | false =>
      cases hdecides : t.decidesNull with
      | true => simp [Scalar.isNull]
      | false => simp [matchesValue_null hdecides, Scalar.isNull]
  | _ => simp [Scalar.isNull]

/-- Where there is an answer for null, an atom is unknown only if the answer is lost. -/
lemma truth_eq_none_iff (num : Number → α) (v : Scalar α) {t : FieldAtom}
    (h : t.decidesNull = true) :
    t.truth num v = none ↔ t.losesNull = true ∧ v.isNull = true := by
  unfold truth
  rw [h]
  cases v.isNull <;> cases t.losesNull <;> simp

end FieldAtom

/-- A constant is written as null only if it is. -/
lemma Constant.WrittenAs.ne_null {values : List Literal} {k : Constant} {g : Fragment}
    (h : k.WrittenAs values g) (hk : k.literal.isNull = false) : g ≠ Fragment.null := by
  rintro rfl
  rcases h with h | ⟨slot, h, -⟩
  · cases hl : k.literal with
    | null =>
      rw [hl] at hk
      cases hk
    | _ =>
      rw [hl] at h
      cases h
  · cases h

/-- Every comparison of a field with constants is rendered. The condition is true of exactly the
values that match, and where the comparison has an answer for null it is never unknown; both but for
an absent field that a constant is compared with by `$ne`. No null is compared unless it is the text
of the field, and the constants of a list other than null stand there once each and in their
order. -/
theorem null_decided_unless_constant_first (t : FieldAtom) (f : FieldPath) (env : Env)
    (e : Emission) :
    ∃ c e', ((t.expr f).condition.run env).run e = .ok c e' ∧
      (Fragment.null ∈ c.compared → ∃ type, env.fieldText f type = Fragment.null) ∧
      (∃ items, List.Forall₂ (Constant.WrittenAs e'.values) t.listed items ∧
        c.lists = if t.listed.isEmpty then [] else [items]) ∧
      ∀ (α : Type) [LinearOrder α] (μ : Meaning α) (v : Scalar α), e'.values <+: μ.values →
        μ.Reads env f t.constants v →
          μ.truth? c = some (t.truth μ.num v) ∧
          ((μ.truth? c = some (some true) ↔ t.matchesValue μ.num v = true) ↔
            ¬ (t.losesNull = true ∧ v.isNull = true)) ∧
          (t.decidesNull = true →
            (μ.truth? c = some none ↔ t.losesNull = true ∧ v.isNull = true)) := by
  obtain ⟨c, e', hrun, hrendered⟩ := FieldAtom.succeeds_condition env f t e
  have hnow := hrendered e'.values List.prefix_rfl
  refine ⟨c, e', hrun, ?_, hnow.lists, fun α _ μ v hvalues hreads => ?_⟩
  · intro hnull
    rcases hnow.compared _ hnull with ⟨type, htext⟩ | ⟨k, -, hk, hwritten⟩
    · exact ⟨type, htext.symm⟩
    · exact absurd rfl (hwritten.ne_null hk)
  · have htruth := (hrendered μ.values hvalues).truth μ v rfl hreads
    simp only [htruth, Option.some_inj, true_and]
    exact ⟨t.truth_eq_true_iff μ.num v, FieldAtom.truth_eq_none_iff μ.num v⟩

/-- The constant null. -/
def nothing : Constant := ⟨.null, .null, rfl, rfl⟩

/-- Rows that hold documents. -/
def storedEnv : Env :=
  { Env.of {} {} with scope := .document baseAlias "data" }

/-- `a` is neither null nor 5. -/
def neitherNullNorFive : FieldAtom :=
  .test (.among true nothing [five, nothing])

theorem neitherNullNorFive_decides_absent : ∃ c e',
    ((neitherNullNorFive.expr { path := fieldA.path }).condition.run storedEnv).run {} = .ok c e' ∧
    ((storedRow (.obj [("a", .num (.int 7))])).bound e'.values).truth? c = some (some true) ∧
    ((storedRow (.obj [])).bound e'.values).truth? c = some (some false) := by
  obtain ⟨c, e', hrun, -, -, htruth⟩ :=
    null_decided_unless_constant_first neitherNullNorFive { path := fieldA.path } storedEnv {}
  have hdoc (doc : Json) (v : Scalar Int)
      (hv : Scalar.ofJson? intOf (doc.at? fieldA.path.segments) = some v)
      (hcomp : ∀ k ∈ neitherNullNorFive.constants, v.Comparable (k.value intOf)) :
      ((storedRow doc).bound e'.values).truth? c = some (neitherNullNorFive.truth intOf v) := by
    have hserves : (storedRow doc).Serves storedEnv := ⟨rfl, rfl⟩
    exact (htruth Int _ v List.prefix_rfl (Row.reads hserves fieldA hv hcomp e'.values)).1
  refine ⟨c, e', hrun, (hdoc _ (.number 7) rfl ?_).trans rfl, (hdoc _ .null rfl ?_).trans rfl⟩
  · simp [neitherNullNorFive, FieldAtom.constants, FieldTest.constants, nothing, five,
      Constant.value, Scalar.Comparable]
  · simp [Scalar.Comparable]

/-- `{$expr: {$ne: [5, "$a"]}}` -/
def fiveDiffers : FieldAtom :=
  .flipped .ne five

/-- A document without the field matches, and the condition is unknown. -/
theorem fiveDiffers_loses_absent :
    fiveDiffers.matchesValue intOf .null = true ∧
    (∃ c e', ((fiveDiffers.expr { path := fieldA.path }).condition.run storedEnv).run {} =
        .ok c e' ∧
      ((storedRow (.obj [])).bound e'.values).truth? c = some none) ∧
    (compile { stages := [.filter (fiveDiffers.expr { path := fieldA.path })] }
        { collection := "orders" } {}).toOption.map Compiled.sql =
      some ("SELECT base.data FROM orders base WHERE " ++
        "(:1 IS NULL OR :2 <> base.data.a.number())") := by
  refine ⟨rfl, ⟨_, _, rfl, rfl⟩, ?_⟩
  decide +kernel

end PipelineSql
