import PipelineSql.Proofs.Nesting
import PipelineSql.Proofs.Relation.Array
import PipelineSql.Render

/-!
# Related expressions

Every expression that counts only documents of stored tables is related to itself, in each way to
write it and whatever the row looks like: the induction over expressions is done here, once for all
logics.
-/

namespace PipelineSql

/-- The reading of an expression remembers it. -/
lemma Reading.expr_ofExpr (e : Expr) : (ofExpr e).expr = e := by
  cases e with
  | text op args =>
    rw [ofExpr]
    unfold ofText
    split <;> rfl
  | array op input index args var =>
    rw [ofExpr]
    unfold ofArray
    split <;> rfl
  | convert op arg target onError onNull =>
    rw [ofExpr]
    unfold ofConversion
    split <;> rfl
  | _ => rw [ofExpr]; rfl

/-- The readings of expressions, one by one. -/
lemma Reading.ofExprs_eq_map (es : List Expr) : ofExprs es = es.map ofExpr := by
  induction es with
  | nil => rw [ofExprs, List.map_nil]
  | cons e es ih => rw [ofExprs, ih, List.map_cons]

namespace RenderLogic

open FragmentLogic

variable {L : RenderLogic} {Γ : Ctx}

/-! ## Accumulators -/

instance (name : String) (arg : Option Reading) : (Render.argumentOf name arg).Ordinary := by
  cases arg with
  | none => exact Result.ordinary_fault rfl
  | some r => exact ⟨trivial⟩

/-- The argument of an accumulator, if there is one. -/
lemma run_argumentOf {name : String} {arg : Option Reading} (h : ∀ r ∈ arg, L.Reads r)
    {α : Type} {A : α → α → Prop} {row : Option Ctx} {k k' : Reading → Render α}
    (hk : ∀ r, L.Reads r → L.Run row A (k r) (k' r)) :
    L.Run row A (liftM (Render.argumentOf name arg) >>= k)
      (liftM (Render.argumentOf name arg) >>= k') := by
  refine run_required (fun r hr => h r ?_) hk
  cases arg <;> cases hr
  rfl

/-- Related environments know the same types. -/
lemma knownType_eq {env env' : Env} (h : L.EnvRel L.data (some Γ) env env') {e : Expr}
    (he : L.Admissible e) : Render.knownType? env e = Render.knownType? env' e := by
  unfold Render.knownType?
  split
  · next f =>
    have hr := h.resolve (he.views.field rfl)
    generalize env.resolve f.path = r, env'.resolve f.path = r' at hr
    cases hr with
    | @value _ _ json _ => cases json <;> rfl
    | place _ => rfl
    | missing => rfl
  · exact Literal.type?_eq (L.features h.speaks) _
  · rfl
  · rfl
  · rfl

/-- What is known to be of a type may be extracted as that. -/
lemma extracts_knownType {env env' : Env} (h : L.EnvRel L.data (some Γ) env env') {e : Expr}
    (he : L.Admissible e) : L.Extracts (Render.knownType? env e) := by
  unfold Render.knownType?
  split
  · have hfield : L.Extracts _ := he.extracts
    dsimp only [Expr.declared?] at hfield
    split <;> infer_instance
  · exact extracts_type? h.speaks _
  · split <;> infer_instance
  · infer_instance
  · infer_instance

lemma run_extreme {name : String} {greatest : Bool} {arg : Reading} {w w' : Fragment}
    (h : L.Reads arg) (hw : L.Rel Γ w w') :
    L.Run (some Γ) (L.Rel Γ) (Render.extreme name greatest arg w)
      (Render.extreme name greatest arg w') := by
  unfold Render.extreme
  refine L.bind L.read fun env env' henv => ?_
  have htype := extracts_knownType henv h.expr
  rw [← knownType_eq henv h.expr]
  split
  · next type hknown =>
    rw [hknown] at htype
    refine L.bind (h.value Γ _) fun f g hfg => L.pure ?_
    mono
  · refine run_warn (L.bind (h.number Γ) fun n n' hn => L.bind (h.value Γ _) fun s s' hs => ?_)
    exact L.pure (rel_mixedExtreme hn hs hw)

lemma run_summed {arg : Reading} (h : L.Reads arg) :
    L.Keeps (some Γ) (L.Rel Γ) (Render.summed arg) := by
  have hsum : L.Keeps (some Γ) (L.Rel Γ)
      (do return Fragment.call "NVL" [Fragment.call "SUM" [← arg.number], "0"]) := by
    refine L.bind (h.number Γ) fun f g hfg => L.pure ?_
    mono
  unfold Render.summed
  split
  · exact L.pure (rel_text _)
  · refine run_ite (fun _ => L.bind L.literal fun f g hfg => L.pure ?_) fun _ => hsum
    mono
  · exact hsum

lemma run_collected {arg : Reading} (h : L.Reads arg) :
    L.Keeps (some Γ) (L.Rel Γ) (Render.collected arg) := by
  unfold Render.collected
  refine L.bind (h.scalar Γ) fun v v' hv => L.pure ?_
  have hlist : L.Rel Γ
      ("LISTAGG" ++ Fragment.paren ("DISTINCT " ++ Fragment.string "\"" ++ " || " ++ v ++ " || " ++
        Fragment.string "\"" ++ ", " ++ Fragment.string ","))
      ("LISTAGG" ++ Fragment.paren ("DISTINCT " ++ Fragment.string "\"" ++ " || " ++ v' ++ " || " ++
        Fragment.string "\"" ++ ", " ++ Fragment.string ",")) := by
    refine rel_append (rel_text _) (rel_paren (rel_separated ?_ (rel_string _)))
    exact rel_separated (rel_separated (rel_append (rel_text _) (rel_string _)) hv) (rel_string _)
  refine rel_separated (rel_separated (rel_separated (rel_string _) hlist) ?_) (rel_string _)
  exact rel_paren (rel_append (rel_text _) hv)

lemma run_aggregate {op : Accumulator} {arg : Option Reading} (h : ∀ r ∈ arg, L.Reads r) :
    L.Keeps (some Γ) (L.JsonRel Γ) (Render.aggregate op arg) := by
  have hcall (function : String) [Common function] : L.Keeps (some Γ) (L.JsonRel Γ)
      (do return (Fragment.call function [← (← Render.argumentOf op.name arg).number], false)) :=
    run_argumentOf h fun r hr => L.bind (hr.number Γ) fun f g hfg =>
      L.pure ⟨rel_call₁ hfg, rfl⟩
  unfold Render.aggregate
  cases op with
  | count => exact L.pure ⟨rel_text _, rfl⟩
  | sum => exact run_argumentOf h fun r hr => run_asJson (run_summed hr)
  | avg => exact hcall _
  | stdDevPop => exact hcall _
  | stdDevSamp => exact hcall _
  | min => exact run_argumentOf h fun r hr => run_asJson (run_extreme hr rel_nil)
  | max => exact run_argumentOf h fun r hr => run_asJson (run_extreme hr rel_nil)
  | first =>
    refine run_warn (run_argumentOf h fun r hr => L.bind (hr.scalar Γ) fun f g hfg => ?_)
    exact L.pure ⟨rel_append (rel_call₁ hfg) (rel_text _), rfl⟩
  | last =>
    refine run_warn (run_argumentOf h fun r hr => L.bind (hr.scalar Γ) fun f g hfg => ?_)
    exact L.pure ⟨rel_append (rel_call₁ hfg) (rel_text _), rfl⟩
  | push =>
    refine run_argumentOf h fun r hr => L.bind (hr.json Γ) ?_
    rintro ⟨f, json⟩ ⟨g, _⟩ ⟨hfg, rfl⟩
    exact L.pure ⟨rel_call₁ (rel_formatted hfg), rfl⟩
  | addToSet => exact run_warn (run_argumentOf h fun r hr => run_asJson (run_collected hr))

lemma run_overArray {op : Accumulator} {arg : Option Reading} (h : ∀ r ∈ arg, L.Reads r) :
    L.Keeps (some Γ) (L.Rel Γ) (Render.overArray op arg) := by
  unfold Render.overArray
  cases op with
  | sum =>
    refine run_argumentOf h fun r hr => L.bind (run_numberAggregate hr) fun f g hfg => L.pure ?_
    mono
  | avg => exact run_argumentOf h fun r hr => run_numberAggregate hr
  | stdDevPop => exact run_argumentOf h fun r hr => run_numberAggregate hr
  | stdDevSamp => exact run_argumentOf h fun r hr => run_numberAggregate hr
  | min => exact run_argumentOf h fun r hr => run_elementExtreme hr
  | max => exact run_argumentOf h fun r hr => run_elementExtreme hr
  | first => exact run_argumentOf h fun r hr => run_endElement hr
  | last => exact run_argumentOf h fun r hr => run_endElement hr
  | count => exact run_unsupported _
  | push => exact run_unsupported _
  | addToSet => exact run_unsupported _

/-! ## Window functions -/

/-- A function of the argument, followed by `window`. -/
lemma run_argumentCall {name function : String} [Common function] {arg : Option Reading}
    {type : Option JsonType} [L.Extracts type] {w w' : Fragment} (h : ∀ r ∈ arg, L.Reads r)
    (hw : L.Rel Γ w w') :
    L.Run (some Γ) (L.Rel Γ)
      (do return Fragment.call function [← (← Render.argumentOf name arg).value type] ++ w)
      (do return Fragment.call function [← (← Render.argumentOf name arg).value type] ++ w') := by
  refine run_argumentOf h fun r hr => L.bind (hr.value Γ type) fun f g hfg => L.pure ?_
  mono

lemma rel_overClause (hw : L.Windowing) (out : WindowOutput) {f g : Fragment} (ordered : Bool)
    (h : L.Rel Γ f g) :
    L.Rel Γ (Render.overClause out f ordered) (Render.overClause out g ordered) := by
  refine rel_append (rel_over hw) (rel_paren (rel_append h ?_))
  split <;> mono

lemma run_shifted {arg : Reading} {shift : Shift} {w w' : Fragment} (h : L.Reads arg)
    (hw : L.Rel Γ w w') :
    L.Run (some Γ) (L.Rel Γ) (Render.shifted arg shift w) (Render.shifted arg shift w') := by
  unfold Render.shifted
  refine L.bind (h.scalar Γ) fun f g hfg => run_ite (fun _ => L.pure hfg) fun _ => ?_
  refine run_ite (fun _ => L.pure ?_) fun _ => L.bind L.literal fun v v' hv => L.pure ?_
  · mono
  · mono

lemma run_windowFunction (hw : L.Windowing) {out : WindowOutput} {arg : Option Reading}
    {f g : Fragment} {ordered : Bool} (h : ∀ r ∈ arg, L.Reads r) (hfg : L.Rel Γ f g) :
    L.Run (some Γ) (L.Rel Γ) (Render.windowFunction out arg f ordered)
      (Render.windowFunction out arg g ordered) := by
  have hw := rel_overClause hw out ordered hfg
  unfold Render.windowFunction
  dsimp only
  refine run_ite (fun _ => ?_) fun _ => ?_
  · exact L.bind (A := fun _ _ => False) (run_fault (L.fails rfl)) fun _ _ => False.elim
  · cases out.op with
    | rank => exact L.pure (rel_append (rel_text _) hw)
    | denseRank => exact L.pure (rel_append (rel_text _) hw)
    | documentNumber => exact L.pure (rel_append (rel_text _) hw)
    | count => exact L.pure (rel_append (rel_text _) hw)
    | sum => exact run_argumentCall h hw
    | avg => exact run_argumentCall h hw
    | stdDevPop => exact run_argumentCall h hw
    | stdDevSamp => exact run_argumentCall h hw
    | min => exact run_argumentOf h fun r hr => run_extreme hr hw
    | max => exact run_argumentOf h fun r hr => run_extreme hr hw
    | first => exact run_argumentCall h hw
    | last => exact run_argumentCall h hw
    | shift =>
      cases out.shift with
      | none => exact run_fault (L.fails rfl)
      | some shift => exact run_argumentOf h fun r hr => run_shifted hr hw
    | push => exact run_unsupported _

/-! ## Expressions -/

lemma reads_ofField {f : FieldPath} (h : L.Admissible (.field f)) : L.Reads (.ofField f) := by
  have : L.Extracts f.type := h.extracts
  have hv := h.views.field (e := .field f) rfl
  have base : L.Reads (.ofValue (.field f) fun type => do
      return (← read).fieldValue f.path (f.type.or type)) :=
    reads_ofValue h (fun _ Γ type _ => L.bind L.read fun env env' henv =>
      L.pure (henv.fieldValue (henv.resolve hv) _)) (by simp)
  exact { base with
    json := fun Γ => L.bind L.read fun env env' henv => L.pure (henv.fieldJson (henv.resolve hv))
    source := fun Γ => L.bind L.read fun env env' henv => L.pure (henv.resolve hv).fieldSource }

lemma reads_ofVariable {name : String} {path : Option Path} (h : L.Admissible (.var name path)) :
    L.Reads (.ofVariable name path) := by
  have base : L.Reads (.ofValue (.var name path) (variableValue name path)) :=
    reads_ofValue h (fun _ Γ type _ => run_variableValue h.views type) (by simp)
  exact { base with
    json := fun Γ => run_variableJson h.views
    source := fun Γ => run_variableSource h.views }

lemma reads_ofLiteral {l : Literal} (he : L.Admissible (.lit l)) : L.Reads (.ofLiteral l) := by
  have base {value : Render Fragment} (h : ∀ Γ, L.Keeps (some Γ) (L.Rel Γ) value) :
      L.Reads (.ofValue (.lit l) fun _ => value) :=
    reads_ofValue he (fun _ Γ _ _ => h Γ) (by simp)
  cases l with
  | array items =>
    exact { base fun Γ => L.pure (rel_ofToken rfl) with
      condition := fun Γ => L.pure (.constant _) }
  | _ =>
    exact { base fun Γ => L.literal with
      condition := fun Γ => L.pure (.constant _) }

lemma reads_ofText {e : Expr} {op : TextOp} {rs : List Reading} (he : L.Admissible e)
    (h : ∀ r ∈ rs, L.Reads r) (hsum : ∀ r ∈ op.counted rs, L.Summable r.expr)
    (hshape : e.checkShape = .ok () → op.positions ≤ rs.length) :
    L.Reads (.ofText e op rs) := by
  unfold Reading.ofText
  split
  · simp only [List.forall_mem_cons] at h
    exact reads_ofCondition he fun _ Γ => run_regexTest h.1 h.2.1
  · next hother =>
    refine reads_ofCondition he fun he _ => ?_
    have hn : 2 ≤ rs.length := hshape he
    obtain ⟨text, rs, rfl⟩ := List.exists_cons_of_length_pos (Nat.lt_of_lt_of_le Nat.zero_lt_two hn)
    obtain ⟨pattern, rest, rfl⟩ := List.exists_cons_of_length_pos (Nat.le_of_succ_le_succ hn)
    exact absurd rfl (hother text pattern rest)
  · next hop _ => exact reads_ofValue he (fun he Γ _ _ => run_text hop h hsum (hshape he)) h

lemma reads_ofArray {e : Expr} {op : ArrayOp} {input index : Option Reading} {rs : List Reading}
    {var : Option String} (he : L.Admissible e) (hin : ∀ r ∈ input, L.Reads r)
    (hix : ∀ r ∈ index, L.Reads r) (h : ∀ r ∈ rs, L.Reads r)
    (hshape : e.checkShape = .ok () → op.positions ≤ rs.length) :
    L.Reads (.ofArray e op input index rs var) := by
  unfold Reading.ofArray
  split
  · next hop =>
    exact reads_ofCondition he fun he Γ => run_arrayCondition hop hin h (hshape he)
  · next hop =>
    rw [Bool.not_eq_true] at hop
    exact reads_ofValue he (fun he Γ type _ => run_arrayValue hop hin hix h (hshape he)) (by simp)

lemma reads_ofConversion {e : Expr} {op : Conversion} {arg : Reading} {target : Option Conversion}
    {onError onNull : Option Reading} (hd : L.Admissible e) (ha : L.Reads arg)
    (he : ∀ r ∈ onError, L.Reads r) (hn : ∀ r ∈ onNull, L.Reads r) :
    L.Reads (.ofConversion e op arg target onError onNull) := by
  unfold Reading.ofConversion
  split
  · exact reads_ofCondition hd fun _ Γ => run_numberTest ha
  · exact reads_ofValue hd (fun _ Γ _ _ => run_conversion ha he hn) (by simp)

lemma run_choose {bs : List (Reading × Reading)} {default : Option Reading}
    {type : Option JsonType} [L.Extracts type] (h : ∀ b ∈ bs, L.Reads b.1 ∧ L.Reads b.2)
    (hd : ∀ r ∈ default, L.Reads r) :
    L.Keeps (some Γ) (L.Rel Γ) (Reading.choose bs default type) := by
  unfold Reading.choose
  refine L.bind (run_mapM_self (A := L.Branch Γ) fun b hb => ?_) fun fs gs hfs => ?_
  · refine L.bind ((h b hb).1.condition Γ) fun c c' hc => ?_
    exact L.bind ((h b hb).2.value Γ type) fun f g hfg => L.pure (branch_cond hc hfg)
  · cases default with
    | none => exact L.pure (rel_cases_none hfs)
    | some r =>
      exact L.bind ((hd r rfl).value Γ type) fun f g hfg => L.pure (rel_cases_some hfs hfg)

lemma run_coalesce {rs : List Reading} {type : Option JsonType} [L.Extracts type]
    (h : ∀ r ∈ rs, L.Reads r) : L.Keeps (some Γ) (L.Rel Γ) (Reading.coalesce rs type) :=
  L.bind (run_mapM_self fun r hr => (h r hr).value Γ type) fun _ _ hfs => L.pure (rel_call hfs)

/-- What has to be known is known of all nodes. -/
def Known (L : RenderLogic) (e : Expr) : Prop :=
  ∀ n ∈ e.nodes, L.Admissible n

lemma known_iff {e : Expr} :
    L.Known e ↔ L.Admissible e ∧ ∀ part ∈ e.parts, L.Known part :=
  Expr.forall_nodes

/-- What is known of the expression itself. -/
lemma Known.self {e : Expr} (h : L.Known e) : L.Admissible e :=
  (known_iff.1 h).1

/-- What is known of all arguments. -/
lemma Known.parts {e : Expr} (h : L.Known e) : ∀ part ∈ e.parts, L.Known part :=
  (known_iff.1 h).2

/-- The sums of an operation on text are known. -/
lemma summable_counted {op : TextOp} {args : List Expr} (h : L.Known (.text op args)) :
    ∀ r ∈ op.counted (Reading.ofExprs args), L.Summable r.expr := by
  intro r hr hchecked hlast
  refine h.self.sums hchecked (List.any_eq_true.2 ⟨r.expr, ?_, hlast⟩)
  rw [Reading.ofExprs_eq_map, ← TextOp.map_counted] at hr
  obtain ⟨arg, harg, rfl⟩ := List.mem_map.1 hr
  rwa [Reading.expr_ofExpr]

/-- A node that passes the check has a reading for every position. -/
lemma positions_le_ofExprs {e : Expr} {es : List Expr} (hes : e.argumentCount = es.length)
    (hshape : e.checkShape = .ok ()) : e.positions ≤ (Reading.ofExprs es).length := by
  rw [Reading.ofExprs_eq_map, List.length_map, ← hes]
  exact Expr.positions_le_argumentCount hshape

mutual

/-- Every way to write an expression is related to itself. -/
lemma reads_ofExpr : ∀ e : Expr, L.Known e → L.Reads (.ofExpr e)
  | .field f, h => reads_ofField h.self
  | .var name path, h => reads_ofVariable h.self
  | .lit l, h => reads_ofLiteral h.self
  | .compare op left right, h =>
    have hs := List.forall_mem_cons.1 h.parts
    reads_ofCondition h.self fun _ Γ => run_comparison (reads_ofExpr left hs.1)
      (reads_ofExpr right (List.forall_mem_singleton.1 hs.2))
  | .logic op operands, h =>
    reads_ofCondition h.self fun hshape Γ =>
      run_connective (reads_ofExprs operands h.parts) (positions_le_ofExprs rfl hshape)
  | .arith op operands, h =>
    have hs := reads_ofExprs operands h.parts
    reads_ofValue h.self
      (fun hshape Γ _ _ => run_arithmetic hs (positions_le_ofExprs rfl hshape)) hs
  | .array op input index args var, h =>
    have hs := List.forall_mem_append.1 h.parts
    have hin := List.forall_mem_append.1 hs.1
    reads_ofArray h.self (reads_ofOption input hin.1) (reads_ofOption index hin.2)
      (reads_ofExprs args hs.2) (positions_le_ofExprs rfl)
  | .text op args, h =>
    reads_ofText h.self (reads_ofExprs args h.parts) (summable_counted h)
      (positions_le_ofExprs rfl)
  | .date part arg, h =>
    have harg := reads_ofExpr arg (h.parts _ List.mem_cons_self)
    reads_ofValue h.self (fun _ Γ _ _ => run_datePart harg) (by simp)
  | .cond test yes no, h =>
    have hs := List.forall_mem_cons.1 h.parts
    have hs' := List.forall_mem_cons.1 hs.2
    reads_ofValue h.self (fun _ Γ type _ => run_choose
      (by simpa using ⟨reads_ofExpr test hs.1, reads_ofExpr yes hs'.1⟩)
      (by simpa using reads_ofExpr no (List.forall_mem_singleton.1 hs'.2))) (by simp)
  | .ifNull args, h =>
    reads_ofValue h.self (fun _ Γ type _ => run_coalesce (reads_ofExprs args h.parts)) (by simp)
  | .switch branches default, h =>
    have hs := List.forall_mem_append.1 h.parts
    reads_ofValue h.self (fun _ Γ type _ => run_choose (reads_ofPairs branches hs.1)
      (reads_ofOption default hs.2)) (by simp)
  | .accumulate op arg, h =>
    reads_ofValue h.self (fun _ Γ _ _ => run_overArray (reads_ofOption arg h.parts)) (by simp)
  | .compoundId fields, h =>
    reads_ofValue h.self (fun _ Γ _ _ => run_document (reads_ofFields fields h.parts)) (by simp)
  | .convert op arg target onError onNull, h =>
    have hs := List.forall_mem_cons.1 h.parts
    have hs' := List.forall_mem_append.1 hs.2
    reads_ofConversion h.self (reads_ofExpr arg hs.1) (reads_ofOption onError hs'.1)
      (reads_ofOption onNull hs'.2)
  | .lookupSize source localField foreignField, h =>
    reads_ofValue h.self (fun _ Γ _ _ => L.bind L.read fun env env' henv =>
      run_lookupSize (h.self.stored source rfl)
        (henv.fieldValue (henv.resolve (h.self.views _ rfl)) none))
      (by simp)
  | .present f expected, h =>
    reads_ofCondition h.self fun _ Γ => run_presence (h.self.views _ rfl)
  | .object op args, h =>
    reads_ofValue h.self (fun hshape Γ _ _ =>
      run_object (reads_ofExprs args h.parts) (positions_le_ofExprs rfl hshape)) (by simp)
  | .document fields, h =>
    reads_ofValue h.self (fun _ Γ _ _ => run_document (reads_ofFields fields h.parts)) (by simp)

lemma reads_ofExprs : ∀ es : List Expr, (∀ e ∈ es, L.Known e) →
    ∀ r ∈ Reading.ofExprs es, L.Reads r
  | [], _ => by simp [Reading.ofExprs]
  | e :: es, h => by
    obtain ⟨he, hes⟩ := List.forall_mem_cons.1 h
    simp only [Reading.ofExprs, List.forall_mem_cons]
    exact ⟨reads_ofExpr e he, reads_ofExprs es hes⟩

lemma reads_ofOption : ∀ o : Option Expr, (∀ e ∈ o.toList, L.Known e) →
    ∀ r ∈ Reading.ofOption o, L.Reads r
  | none, _ => by simp [Reading.ofOption]
  | some e, h => by simpa [Reading.ofOption] using reads_ofExpr e (h e List.mem_cons_self)

lemma reads_ofPairs : ∀ bs : List (Expr × Expr),
    (∀ e ∈ bs.flatMap fun b => [b.1, b.2], L.Known e) →
    ∀ b ∈ Reading.ofPairs bs, L.Reads b.1 ∧ L.Reads b.2
  | [], _ => by simp [Reading.ofPairs]
  | (a, b) :: bs, h => by
    obtain ⟨ha, h⟩ := List.forall_mem_cons.1 h
    obtain ⟨hb, hbs⟩ := List.forall_mem_cons.1 h
    simp only [Reading.ofPairs, List.forall_mem_cons]
    exact ⟨⟨reads_ofExpr a ha, reads_ofExpr b hb⟩, reads_ofPairs bs hbs⟩

lemma reads_ofFields : ∀ fields : List (String × Expr), (∀ e ∈ fields.map Prod.snd, L.Known e) →
    ∀ p ∈ Reading.ofFields fields, L.Reads p.2
  | [], _ => by simp [Reading.ofFields]
  | (_, e) :: rest, h => by
    obtain ⟨he, hrest⟩ := List.forall_mem_cons.1 h
    simp only [Reading.ofFields, List.forall_mem_cons]
    exact ⟨reads_ofExpr e he, reads_ofFields rest hrest⟩

end

section Known

variable {e : Expr} (h : L.Known e)

include h

lemma run_value : L.Keeps (some Γ) (L.Rel Γ) e.value :=
  (reads_ofExpr e h).scalar Γ

lemma run_typed (type : JsonType) [L.Extracts (some type)] :
    L.Keeps (some Γ) (L.Rel Γ) (e.typed type) :=
  (reads_ofExpr e h).value Γ _

lemma run_condition : L.Keeps (some Γ) (L.Cond Γ) e.condition :=
  (reads_ofExpr e h).condition Γ

lemma run_json : L.Keeps (some Γ) (L.JsonRel Γ) e.json :=
  (reads_ofExpr e h).json Γ

end Known

lemma run_exprAggregate {op : Accumulator} {arg : Option Expr}
    (h : L.Known (.accumulate op arg)) : L.Keeps (some Γ) (L.JsonRel Γ) (Expr.aggregate op arg) :=
  run_aggregate (reads_ofOption arg h.parts)

lemma run_windowOutput (hw : L.Windowing) {out : WindowOutput} {f g : Fragment} {ordered : Bool}
    (harg : ∀ e ∈ out.arg, L.Known e) (h : L.Rel Γ f g) :
    L.Run (some Γ) (L.Rel Γ) (out.render f ordered) (out.render g ordered) :=
  run_windowFunction hw (reads_ofOption out.arg fun e he => harg e (Option.mem_toList.1 he)) h

end RenderLogic

end PipelineSql
