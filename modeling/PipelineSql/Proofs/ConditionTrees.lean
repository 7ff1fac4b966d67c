import PipelineSql.Proofs.UnjoinedTexts

/-!
# The tree of a condition

A connective writes the texts of its operands with joints between them, and leaves it to the database
to find the operands again. Every condition is written so that it keeps together there: what it
leaves outside all brackets has no `OR`. So the text reads back as the tree of the connectives.
-/

namespace PipelineSql

open Fragment Condition

/-- None of the values that a reading gives has joints. -/
def Reading.Unjoined (env : Env) (r : Reading) : Prop :=
  ∀ type, (r.value type).Yields env Fragment.Unjoined

namespace Render

variable {env : Env} {left right arg : Reading}

lemma unjoined_ofExpr (h : env.scope.Unjoined) (e : Expr) : (Reading.ofExpr e).Unjoined env :=
  fun type => yields_unjoined h e (.scalar type)

/-- A condition is well joined whichever way it is turned. -/
lemma wellJoined_ite {b : Bool} {c c' : Condition} (h : c.WellJoined) (h' : c'.WellJoined) :
    (if b = true then c else c').WellJoined := by
  cases b with
  | true => exact h
  | false => exact h'

/-! ## Comparisons and presence -/

lemma yields_wellJoined_membership (hleft : left.Unjoined env) {items : List Literal}
    {negated : Bool} : (membership left items negated).Yields env WellJoined := by
  refine yields_read (yields_bind (hleft _) fun l hl => ?_)
  refine yields_ite (fun _ => yields_pure ?_) fun _ => yields_then fun fragments => ?_
  · exact wellJoined_ite (wellJoined_isNotNull hl) (wellJoined_isNull hl)
  · dsimp only
    split
    · exact yields_pure (wellJoined_among hl)
    · exact yields_pure (wellJoined_any _)
    · exact yields_pure (wellJoined_any _)
    · exact yields_pure (wellJoined_all _)

lemma yields_wellJoined_arrayEquality {path : Path} {items : List Literal} {negated : Bool} :
    (arrayEquality path items negated).Yields env WellJoined := by
  unfold arrayEquality
  refine yields_ite (fun _ => ?_) fun _ => yields_then fun env' => yields_pure ?_
  · unfold emptiness
    refine yields_then fun env' => ?_
    split
    · exact yields_unsupported _
    · exact yields_pure (wellJoined_relation (compact_call rfl).unjoined (by decide))
  · have htest {args : List Fragment} : (Fragment.call "JSON_EQUAL" args).Unjoined :=
      (compact_call rfl).unjoined
    exact wellJoined_ite (wellJoined_testNot htest) (wellJoined_test htest)

lemma yields_wellJoined_nullComparison {op : Comparison} (harg : arg.Unjoined env) :
    (nullComparison op arg).Yields env WellJoined := by
  unfold nullComparison
  split
  · exact yields_pure (wellJoined_constant _)
  · exact yields_pure (wellJoined_constant _)
  · exact yields_bind (harg none) fun f hf => yields_pure (wellJoined_isNotNull hf)
  · exact yields_bind (harg none) fun f hf => yields_pure (wellJoined_isNull hf)

lemma yields_wellJoined_valueComparison {op : Comparison} (hleft : left.Unjoined env)
    (hright : right.Unjoined env) : (valueComparison op left right).Yields env WellJoined := by
  refine yields_then fun env' => yields_bind (hleft _) fun l hl => ?_
  refine yields_bind (hright _) fun r hr => ?_
  split
  · exact yields_pure (wellJoined_any _)
  · exact yields_pure (wellJoined_relation hl hr)

lemma yields_wellJoined_comparison {op : Comparison} (hleft : left.Unjoined env)
    (hright : right.Unjoined env) : (comparison op left right).Yields env WellJoined := by
  unfold comparison
  refine yields_ite (fun _ => ?_) fun _ => ?_
  · split
    · exact yields_wellJoined_membership hleft
    · exact yields_fault _
  refine yields_ite (fun _ => yields_wellJoined_nullComparison hleft) fun _ => ?_
  refine yields_ite (fun _ => yields_wellJoined_nullComparison hright) fun _ => ?_
  split
  · refine yields_ite (fun _ => yields_wellJoined_arrayEquality) fun _ => ?_
    exact yields_wellJoined_valueComparison hleft hright
  · exact yields_wellJoined_valueComparison hleft hright

lemma yields_wellJoined_presence (h : env.scope.Unjoined) {path : Path} {expected : Bool} :
    (presence path expected).Yields env WellJoined := by
  unfold presence
  refine yields_read ?_
  split
  · have htest {args : List Fragment} : (Fragment.call "JSON_EXISTS" args).Unjoined :=
      (compact_call rfl).unjoined
    exact yields_pure (wellJoined_ite (wellJoined_test htest) (wellJoined_testNot htest))
  · split
    · exact yields_pure (wellJoined_constant _)
    · have hfield := env.unjoined_fieldValue h path none
      exact yields_pure (wellJoined_ite (wellJoined_isNotNull hfield) (wellJoined_isNull hfield))

lemma yields_wellJoined_numberTest (harg : arg.Unjoined env) :
    (numberTest arg).Yields env WellJoined := by
  have hcheck {v : Fragment} : (Fragment.call "VALIDATE_CONVERSION" [v]).Unjoined :=
    (compact_call rfl).unjoined
  unfold numberTest
  split
  · exact yields_pure (wellJoined_constant _)
  · refine yields_read ?_
    split
    · refine yields_pure (wellJoined_relation compact_jsonValue.unjoined ?_)
      exact (Compact.token rfl).unjoined
    · refine yields_then fun _ => yields_bind (harg none) fun v hv => yields_pure ?_
      exact wellJoined_both (wellJoined_isNotNull hv) (wellJoined_relation hcheck (by decide))

/-! ## Arrays and text -/

lemma unjoined_existsElement {d : Dialect} {a : ArraySource} {label : String} {test : Fragment} :
    (existsElement d a label test).Unjoined :=
  Unjoined.append (by decide) compact_overElements.unjoined.2

lemma yields_wellJoined_containment {array value : Reading} (hvalue : value.Unjoined env) :
    (containment array value).Yields env WellJoined := by
  unfold containment
  split
  · exact yields_pure (wellJoined_constant _)
  · exact yields_wellJoined_membership hvalue
  · exact yields_then fun _ => yields_then fun _ => yields_then fun _ => yields_then fun _ =>
      yields_pure (wellJoined_test unjoined_existsElement)

lemma yields_wellJoined_subset : (subset left right).Yields env WellJoined :=
  yields_then fun _ => yields_then fun _ => yields_then fun _ => yields_then fun _ =>
    yields_pure (wellJoined_testNot unjoined_existsElement)

lemma yields_wellJoined_elementTruth {any : Bool} {array : Reading} :
    (elementTruth any array).Yields env WellJoined := by
  refine yields_then fun _ => yields_then fun _ => yields_then fun _ => ?_
  dsimp only
  refine yields_ite (fun _ => yields_pure ?_) fun _ => yields_pure ?_
  · exact wellJoined_test unjoined_existsElement
  · exact wellJoined_testNot unjoined_existsElement

lemma yields_wellJoined_arrayCondition {op : ArrayOp} {input : Option Reading}
    {args : List Reading} (hargs : ∀ r ∈ args, r.Unjoined env) :
    (arrayCondition op input args).Yields env WellJoined := by
  unfold arrayCondition
  split
  · exact yields_fault _
  · exact yields_then fun _ => yields_wellJoined_containment (hargs _ List.mem_cons_self)
  · refine yields_then fun _ => yields_then fun _ => yields_then fun _ => yields_pure ?_
    exact wellJoined_relation compact_jsonValue.unjoined (Compact.token rfl).unjoined
  · exact yields_wellJoined_subset
  · exact yields_then fun _ => yields_pure (wellJoined_all _)
  · exact yields_then fun _ => yields_wellJoined_elementTruth
  · exact yields_then fun _ => yields_wellJoined_elementTruth
  · exact yields_fault _

lemma yields_wellJoined_regexTest {s pattern : Reading} {options : Option Reading} :
    (regexTest s pattern options).Yields env WellJoined :=
  yields_then fun _ => yields_then fun _ => yields_then fun _ =>
    yields_pure (wellJoined_test (compact_call rfl).unjoined)

/-- The truth of a value compares a choice with one. -/
lemma wellJoined_truth (v : Fragment) : (truth v).WellJoined :=
  wellJoined_relation Compact.cases.unjoined (by decide)

lemma yields_wellJoined_ofValue {e : Expr} {value : Option JsonType → Render Fragment}
    {operands : List Reading} :
    (Reading.ofValue e value operands).condition.Yields env WellJoined :=
  yields_then fun v => yields_pure (wellJoined_truth v)

lemma yields_wellJoined_ofCondition {e : Expr} {c : Render Condition}
    (h : c.Yields env WellJoined) : (Reading.ofCondition e c).condition.Yields env WellJoined :=
  yields_then fun _ => h

/-- A condition that is no connective is well joined. -/
lemma yields_wellJoined_atom (h : env.scope.Unjoined) {e : Expr}
    (hatom : ∀ op operands, e ≠ .logic op operands) : e.condition.Yields env WellJoined := by
  have hargs (es : List Expr) : ∀ r ∈ Reading.ofExprs es, r.Unjoined env := by
    intro r hr
    rw [Reading.ofExprs_eq_map] at hr
    obtain ⟨a, -, rfl⟩ := List.mem_map.1 hr
    exact unjoined_ofExpr h a
  unfold Expr.condition
  cases e with
  | logic op operands => exact absurd rfl (hatom op operands)
  | field _ | var _ _ =>
    rw [Reading.ofExpr]
    exact yields_then fun v => yields_pure (wellJoined_truth v)
  | lit l =>
    rw [Reading.ofExpr]
    exact yields_pure (wellJoined_constant _)
  | compare op left right =>
    rw [Reading.ofExpr]
    exact yields_wellJoined_ofCondition
      (yields_wellJoined_comparison (unjoined_ofExpr h left) (unjoined_ofExpr h right))
  | array op input index args var =>
    rw [Reading.ofExpr]
    unfold Reading.ofArray
    split
    · exact yields_wellJoined_ofCondition (yields_wellJoined_arrayCondition (hargs args))
    · exact yields_wellJoined_ofValue
  | text op args =>
    rw [Reading.ofExpr]
    unfold Reading.ofText
    split
    · exact yields_wellJoined_ofCondition yields_wellJoined_regexTest
    · exact yields_wellJoined_ofCondition (yields_fault _)
    · exact yields_wellJoined_ofValue
  | convert op arg target onError onNull =>
    rw [Reading.ofExpr]
    unfold Reading.ofConversion
    split
    · exact yields_wellJoined_ofCondition (yields_wellJoined_numberTest (unjoined_ofExpr h arg))
    · exact yields_wellJoined_ofValue
  | present f expected =>
    rw [Reading.ofExpr]
    exact yields_wellJoined_ofCondition (yields_wellJoined_presence h)
  | _ =>
    -- The others are values, and are true by a comparison of a choice.
    rw [Reading.ofExpr]
    exact yields_wellJoined_ofValue

end Render

/-! ## Connectives -/

/-- The condition is one that rendering the expression may give. -/
def Expr.Decides (env : Env) (e : Expr) (c : Condition) : Prop :=
  ∃ s s', (e.condition.run env).run s = .ok c s'

/-- Conjuncts that are the tree of an expression: at a connective those of its operands in order,
joined as the connective says, and at any other expression those of a condition that it is rendered
as. -/
inductive Mirrors (env : Env) : Expr → List Conjunct → Prop where
  | atom {e c} :
    (∀ op operands, e ≠ .logic op operands) →
    e.Decides env c →
    Mirrors env e c.conjuncts
  | and {operands ts} :
    List.Forall₂ (Mirrors env) operands ts →
    Mirrors env (.logic .and operands) ts.flatten
  | or {operands ts} :
    List.Forall₂ (Mirrors env) operands ts →
    Mirrors env (.logic .or operands) (Conjunct.any ts)
  | not {operand t} :
    Mirrors env operand t →
    Mirrors env (.logic .not [operand]) [.negation t]
  | nor {operands ts} :
    List.Forall₂ (Mirrors env) operands ts →
    Mirrors env (.logic .nor operands) [.negation (Conjunct.any ts)]

/-- A condition keeps together and reads back as the tree of the expression. -/
def Expr.ReadsBack (env : Env) (e : Expr) (c : Condition) : Prop :=
  c.WellJoined ∧ Mirrors env e c.conjuncts

namespace Render

variable {env : Env}

/-- Conditions of operands are read back one by one. -/
lemma mirrors_of_forall₂ {es : List Expr} {cs : List Condition}
    (h : List.Forall₂ (Expr.ReadsBack env) es cs) :
    (∀ c ∈ cs, c.WellJoined) ∧ List.Forall₂ (Mirrors env) es (cs.map Condition.conjuncts) := by
  induction h with
  | nil => exact ⟨List.forall_mem_nil _, .nil⟩
  | cons hc _ ih =>
    obtain ⟨hwell, hmirrors⟩ := hc
    exact ⟨List.forall_mem_cons.2 ⟨hwell, ih.1⟩, .cons hmirrors ih.2⟩

/-- Operands are rendered in order. -/
lemma yields_readsBack_operands {es : List Expr}
    (h : ∀ e ∈ es, e.condition.Yields env (e.ReadsBack env)) :
    ((Reading.ofExprs es).mapM Reading.condition).Yields env
      (List.Forall₂ (Expr.ReadsBack env) es) := by
  rw [Reading.ofExprs_eq_map, List.mapM_map]
  exact yields_mapM h

/-- A connective is read back if its operands are. It has at least one, and where it has one only the
brackets are left out. -/
lemma yields_readsBack_connective {op : Connective} {es : List Expr}
    (hcheck : (Expr.logic op es).checkShape = .ok ())
    (h : ∀ e ∈ es, e.condition.Yields env (e.ReadsBack env)) :
    (connective op (Reading.ofExprs es)).Yields env ((Expr.logic op es).ReadsBack env) := by
  have hoperands := yields_readsBack_operands h
  cases es with
  | nil => cases op <;> cases hcheck
  | cons e rest =>
    -- `AND` and `OR` leave out the brackets of a single operand, the others never do.
    cases op with
    | and =>
      cases rest with
      | nil =>
        rw [Reading.ofExprs, Reading.ofExprs]
        refine (h e List.mem_cons_self).imp ?_
        rintro c ⟨hwell, hmirrors⟩
        have hand := Mirrors.and (.cons hmirrors .nil)
        rw [List.flatten_singleton] at hand
        exact ⟨hwell, hand⟩
      | cons e' rest =>
        refine yields_bind hoperands fun cs hcs => yields_pure ⟨wellJoined_all cs, ?_⟩
        obtain ⟨hwell, hmirrors⟩ := mirrors_of_forall₂ hcs
        cases hcs with
        | cons _ _ =>
          rw [conjuncts_all hwell]
          exact .and hmirrors
    | or =>
      cases rest with
      | nil =>
        rw [Reading.ofExprs, Reading.ofExprs]
        refine (h e List.mem_cons_self).imp ?_
        rintro c ⟨hwell, hmirrors⟩
        have hor := Mirrors.or (.cons hmirrors .nil)
        exact ⟨hwell, hor⟩
      | cons e' rest =>
        refine yields_bind hoperands fun cs hcs => yields_pure ⟨wellJoined_any cs, ?_⟩
        obtain ⟨hwell, hmirrors⟩ := mirrors_of_forall₂ hcs
        cases hcs with
        | cons _ _ =>
          rw [conjuncts_any hwell]
          exact .or hmirrors
    | not =>
      cases rest with
      | cons e' rest => cases hcheck
      | nil =>
        refine yields_bind (h e List.mem_cons_self) fun c hc =>
          yields_pure ⟨wellJoined_none [c], ?_⟩
        rw [conjuncts_none (List.forall_mem_singleton.2 hc.1)]
        exact .not hc.2
    | nor =>
      refine yields_bind hoperands fun cs hcs => yields_pure ⟨wellJoined_none cs, ?_⟩
      obtain ⟨hwell, hmirrors⟩ := mirrors_of_forall₂ hcs
      cases hcs with
      | cons _ _ =>
        rw [conjuncts_none hwell]
        exact .nor hmirrors

/-- Every condition keeps together and reads back as the tree of its expression. -/
lemma yields_readsBack (h : env.scope.Unjoined) (e : Expr) :
    e.condition.Yields env (e.ReadsBack env) := by
  by_cases hatom : ∀ op operands, e ≠ .logic op operands
  · intro s c s' hrun
    exact ⟨yields_wellJoined_atom h hatom hrun, .atom hatom ⟨s, s', hrun⟩⟩
  · cases e with
    | logic op operands =>
      unfold Expr.condition
      rw [Reading.ofExpr]
      refine yields_checked fun hcheck => yields_readsBack_connective hcheck fun e he => ?_
      exact yields_readsBack h e
    | _ => exact absurd (by rintro _ _ ⟨⟩) hatom
termination_by sizeOf e
decreasing_by
  have := List.sizeOf_lt_of_mem he
  simp
  omega

end Render

lemma Expr.Decides.readsBack {env : Env} {e : Expr} {c : Condition} (hc : e.Decides env c)
    (h : env.scope.Unjoined) : e.ReadsBack env c := by
  obtain ⟨s, s', hrun⟩ := hc
  exact Render.yields_readsBack h e hrun

end PipelineSql
