import PipelineSql.Proofs.Relation.Reading
import PipelineSql.Render.Convert
import PipelineSql.Render.Text

/-!
# Related scalars and conditions

Comparisons, arithmetic, text, conversions and documents are related to themselves when their
operands are.
-/

namespace PipelineSql

/-! ## Types of literals -/

namespace Literal

variable {d d' : Dialect}

mutual

/-- A literal has the same type for releases with the same features. -/
lemma type?_eq (hd : d.Alike d') : ∀ l : Literal, l.type? d = l.type? d'
  | .null | .int _ | .double _ | .string _ => by simp only [type?]
  | .bool _ => by simp only [type?, hd.boolean]
  | .array items => by
    simp only [type?]
    exact firstType?_eq hd items

/-- Releases that are alike give a list of literals the same type. -/
lemma firstType?_eq (hd : d.Alike d') :
    ∀ ls : List Literal, firstType? d ls = firstType? d' ls
  | [] => by simp only [firstType?]
  | l :: ls => by
    simp only [firstType?]
    rw [type?_eq hd l, firstType?_eq hd ls]

end

end Literal

namespace FragmentLogic

variable {L : FragmentLogic} {d d' : Dialect}

mutual

/-- The type of a literal is one as which scalars may be extracted. -/
lemma extracts_type? (hd : L.Speaks d d') : ∀ l : Literal, L.Extracts (l.type? d)
  | .null => by
    simp only [Literal.type?]
    infer_instance
  | .bool _ => by
    simp only [Literal.type?]
    split
    · next h => exact extracts_boolean hd h
    · infer_instance
  | .int _ | .double _ | .string _ => by
    simp only [Literal.type?]
    infer_instance
  | .array items => by
    simp only [Literal.type?]
    exact extracts_firstType? hd items

/-- Scalars may be extracted as the type of a list of literals. -/
lemma extracts_firstType? (hd : L.Speaks d d') :
    ∀ ls : List Literal, L.Extracts (Literal.firstType? d ls)
  | [] => by
    simp only [Literal.firstType?]
    infer_instance
  | l :: ls => by
    simp only [Literal.firstType?]
    have := extracts_type? hd l
    have := extracts_firstType? hd ls
    infer_instance

end

end FragmentLogic

namespace RenderLogic

open FragmentLogic

variable {L : RenderLogic} {Γ : Ctx}

/-! ## Comparisons -/

/-- A search in a list is related to itself if its subject is. -/
lemma run_membership {left : Reading} {items : List Literal} {negated : Bool} (h : L.Reads left) :
    L.Keeps (some Γ) (L.Cond Γ) (Render.membership left items negated) := by
  unfold Render.membership
  refine L.bind L.read fun env env' henv => ?_
  have := extracts_firstType? henv.speaks (items.filter fun l => !l.isNull)
  rw [← Literal.firstType?_eq (L.features henv.speaks)]
  refine L.bind (h.value Γ _) fun l l' hl => run_ite (fun _ => ?_) (fun _ => ?_)
  · refine L.pure ?_
    split <;> mono
  · refine L.bind (run_mapM_self fun _ _ => L.literal) fun fs gs hfs => ?_
    split <;> refine L.pure ?_ <;> mono

/-- A test for an empty array reads only the field. -/
lemma run_emptiness {path : Path} (hv : L.Visible (.field path)) {negated : Bool} :
    L.Keeps (some Γ) (L.Cond Γ) (Render.emptiness path negated) := by
  unfold Render.emptiness
  refine L.bind L.read fun env env' henv => ?_
  have hl := (henv.resolve hv).location
  have hspeaks := henv.speaks
  generalize env.location? path = o, env'.location? path = o' at hl
  cases hl with
  | none => exact run_unsupported _
  | some hd =>
    refine L.pure (.relation (rel_call₂ ?_ (rel_text _)) (rel_text _))
    exact rel_jsonValue hspeaks hd

/-- A comparison with an array of constants reads only the field. -/
lemma run_arrayEquality {path : Path} (hv : L.Visible (.field path)) {items : List Literal}
    {negated : Bool} :
    L.Keeps (some Γ) (L.Cond Γ) (Render.arrayEquality path items negated) := by
  unfold Render.arrayEquality
  refine run_ite (fun _ => run_emptiness hv) fun _ => ?_
  refine L.bind L.read fun env env' henv => L.pure ?_
  have hf := (henv.fieldJson (henv.resolve hv)).1
  have ht : L.Rel Γ
      (Fragment.call "JSON_EQUAL" [(env.fieldJson path).1, Token.literal (.array items)])
      (Fragment.call "JSON_EQUAL" [(env'.fieldJson path).1, Token.literal (.array items)]) :=
    rel_call₂ hf (rel_ofToken rfl)
  split
  · exact .testNot ht
  · exact .test ht

/-- A comparison with null is related to itself if the other side is. -/
lemma run_nullComparison {op : Comparison} {other : Reading} (h : L.Reads other) :
    L.Keeps (some Γ) (L.Cond Γ) (Render.nullComparison op other) := by
  unfold Render.nullComparison
  split
  · exact L.pure (.constant _)
  · exact L.pure (.constant _)
  · exact L.bind (h.scalar Γ) fun f g hfg => L.pure (.isNotNull hfg)
  · exact L.bind (h.scalar Γ) fun f g hfg => L.pure (.isNull hfg)

/-- A comparison of two values is related to itself if both are. -/
lemma run_valueComparison {op : Comparison} {left right : Reading} (hl : L.Reads left)
    (hr : L.Reads right) : L.Keeps (some Γ) (L.Cond Γ) (Render.valueComparison op left right) := by
  unfold Render.valueComparison
  refine L.bind L.read fun env env' henv => ?_
  have htype (e : Expr) : (e.literal? >>= Literal.type? env'.dialect) =
      e.literal? >>= Literal.type? env.dialect := by
    rw [funext (Literal.type?_eq (L.features henv.speaks))]
  have hextracts (e : Expr) : L.Extracts (e.literal? >>= Literal.type? env.dialect) := by
    cases e.literal? with
    | none => exact inferInstanceAs (L.Extracts none)
    | some l => exact extracts_type? henv.speaks l
  simp only [htype]
  refine L.bind (hl.value Γ _) fun l l' hl => L.bind (hr.value Γ _) fun r r' hr => ?_
  split <;> refine L.pure ?_ <;> mono

/-- Whatever is compared, the comparison is related to itself if both sides are. -/
lemma run_comparison {op : Comparison} {left right : Reading} (hl : L.Reads left)
    (hr : L.Reads right) : L.Keeps (some Γ) (L.Cond Γ) (Render.comparison op left right) := by
  unfold Render.comparison
  refine run_ite (fun _ => ?_) fun _ => run_ite (fun _ => run_nullComparison hl) fun _ =>
    run_ite (fun _ => run_nullComparison hr) fun _ => ?_
  · split
    · exact run_membership hl
    · exact run_fault (L.fails rfl)
  · split
    · next f items hf _ =>
      have hv : L.Visible (.field f.path) := hl.expr.views _ (by rw [hf]; rfl)
      exact run_ite (fun _ => run_arrayEquality hv) fun _ => run_valueComparison hl hr
    · exact run_valueComparison hl hr

/-- A connective with enough operands is related to itself if they are. -/
lemma run_connective {op : Connective} {rs : List Reading} (h : ∀ r ∈ rs, L.Reads r)
    (hn : op.positions ≤ rs.length) : L.Keeps (some Γ) (L.Cond Γ) (Render.connective op rs) := by
  have hs := run_mapM_self (L := L) fun r hr => (h r hr).condition Γ
  unfold Render.connective
  split
  · exact (h _ List.mem_cons_self).condition Γ
  · exact (h _ List.mem_cons_self).condition Γ
  · exact L.bind hs fun cs cs' hcs => L.pure (.all hcs)
  · exact L.bind hs fun cs cs' hcs => L.pure (.any hcs)
  · refine L.bind ((h _ List.mem_cons_self).condition Γ) fun c c' hc => L.pure ?_
    exact .none (.cons hc .nil)
  · cases hn
  · exact L.bind hs fun cs cs' hcs => L.pure (.none hcs)

/-- A test for a field reads only the field. -/
lemma run_presence {path : Path} (hv : L.Visible (.field path)) {expected : Bool} :
    L.Keeps (some Γ) (L.Cond Γ) (Render.presence path expected) := by
  unfold Render.presence
  refine L.bind L.read fun env env' henv => ?_
  have hl := (henv.resolve hv).location
  have hr := henv.resolve hv
  have hvalue := henv.fieldValue hr none
  generalize env.location? path = o, env'.location? path = o' at hl
  cases hl with
  | some hd =>
    refine L.pure ?_
    split <;> mono
  | none =>
    generalize env.resolve path = r, env'.resolve path = r' at hr
    cases hr with
    | missing => exact L.pure (.constant _)
    | value _ =>
      refine L.pure ?_
      split <;> mono
    | place _ =>
      refine L.pure ?_
      split <;> mono

/-! ## Arithmetic and dates -/

/-- Arithmetic signs are fixed texts. -/
lemma common_sign {op : Arithmetic} {sign : String} (h : op.sign? = some sign) :
    Common s!" {sign} " := by
  cases op <;> cases h <;> simp only [toString, String.reduceAppend] <;> constructor

/-- Where there is no sign, the name of the function is a fixed text. -/
lemma common_function {op : Arithmetic} (h : op.sign? = none) : Common op.function := by
  cases op <;> cases h <;> constructor

/-- The names of parts of a date are fixed texts. -/
lemma common_extract {part : DatePart} {name : String} (h : part.extract? = some name) :
    Common name := by
  cases part <;> cases h <;> constructor

/-- Arithmetic with enough operands is related to itself if they are. -/
lemma run_arithmetic {op : Arithmetic} {rs : List Reading} (h : ∀ r ∈ rs, L.Reads r)
    (hn : op.positions ≤ rs.length) : L.Keeps (some Γ) (L.Rel Γ) (Render.arithmetic op rs) := by
  unfold Render.arithmetic
  split
  · next hsign =>
    have := common_sign hsign
    refine L.bind (run_mapM_self fun r hr => (h r hr).number Γ) fun fs gs hfs => L.pure ?_
    exact rel_paren (rel_joined _ hfs)
  · next hsign =>
    rw [Arithmetic.positions, hsign] at hn
    cases hn
  · next first rest hsign =>
    have := common_function hsign
    have hfirst := h first List.mem_cons_self
    refine run_ite (fun _ => run_elementExtreme hfirst) fun _ => run_ite (fun _ => ?_) fun _ => ?_
    · refine L.bind (hfirst.number Γ) fun f g hfg => L.pure ?_
      exact rel_call₂ (rel_text _) hfg
    · have hcall : ∀ taken ⊆ rest, L.Keeps (some Γ) (L.Rel Γ)
          (do return Fragment.call op.function (← (first :: taken).mapM (·.number))) := by
        intro taken ht
        refine L.bind (run_mapM_self fun r hr => (h r ?_).number Γ) fun fs gs hfs =>
          L.pure (rel_call hfs)
        exact List.cons_subset_cons first ht hr
      have htaken : (if (op.acceptsSecond || op.isExtreme) = true then rest else []) ⊆ rest := by
        split
        · exact List.Subset.refl _
        · exact List.nil_subset _
      exact run_warn_if (run_warn_if (hcall _ htaken))

/-- A date is written as a timestamp, whatever it is computed from. -/
lemma run_timestamp {arg : Reading} (h : L.Reads arg) :
    L.Keeps (some Γ) (L.Rel Γ) (Render.timestamp arg) := by
  unfold Render.timestamp
  refine run_ite (fun _ => h.scalar Γ) fun _ => run_ite (fun _ => L.pure (rel_text _)) fun _ => ?_
  refine L.bind (h.scalar Γ) fun f g hfg => L.pure ?_
  exact rel_call₂ hfg (rel_string _)

/-- A part of a date is related to itself if the date is. -/
lemma run_datePart {part : DatePart} {arg : Reading} (h : L.Reads arg) :
    L.Keeps (some Γ) (L.Rel Γ) (Render.datePart part arg) := by
  unfold Render.datePart
  refine L.bind (run_timestamp h) fun f g hfg => ?_
  split
  · next hname =>
    have := common_extract hname
    exact L.pure (rel_extracted hfg)
  · exact L.pure (rel_call₁ (rel_extracted hfg))
  · refine L.pure (rel_call₂ (rel_call₁ ?_) (rel_text _))
    exact rel_append (rel_extracted hfg) (rel_text _)
  · refine L.pure (rel_append (rel_call₂ (rel_append ?_ (rel_text _)) (rel_text _)) (rel_text _))
    exact rel_separated (rel_call₁ hfg) (rel_call₂ hfg (rel_string _))
  · exact L.pure (rel_call₁ (rel_call₂ hfg (rel_string _)))

/-! ## Documents -/

/-- A document is related to itself if the values of its fields are. -/
lemma run_document {fields : List (String × Reading)} (h : ∀ p ∈ fields, L.Reads p.2) :
    L.Keeps (some Γ) (L.Rel Γ) (Render.document fields) := by
  unfold Render.document
  refine L.bind (run_mapM_self fun p hp => ?_) fun fs gs hfs => L.pure (rel_call hfs)
  refine L.bind ((h p hp).json Γ) ?_
  rintro ⟨f, json⟩ ⟨g, _⟩ ⟨hfg, rfl⟩
  exact L.pure (rel_separated (rel_string _) (rel_formatted hfg))

/-- Documents are merged one after another, so the induction is on those that follow. -/
lemma run_mergedDocuments {r : Reading} {rs : List Reading} (h : ∀ x ∈ r :: rs, L.Reads x) :
    L.Keeps (some Γ) (L.Rel Γ) (Render.mergedDocuments (r :: rs)) := by
  obtain ⟨hr, hrs⟩ := List.forall_mem_cons.1 h
  unfold Render.mergedDocuments
  simp only [List.mapM_cons, bind_assoc, pure_bind]
  refine L.bind (hr.json Γ) fun a b hab => ?_
  refine L.bind (run_mapM_self fun x hx => (hrs x hx).json Γ) fun as bs has => L.pure ?_
  -- the document merged so far is the invariant of the fold
  have key : ∀ f g, L.Rel Γ f g → L.Rel Γ
      (as.foldl (fun acc next => Fragment.call "JSON_MERGEPATCH" [acc, next.1]) f)
      (bs.foldl (fun acc next => Fragment.call "JSON_MERGEPATCH" [acc, next.1]) g) := by
    induction has with
    | nil => exact fun _ _ hfg => hfg
    | cons hab _ ih =>
      exact fun f g hfg => ih _ _ (rel_call₂ hfg hab.1)
  exact key _ _ hab.1

/-- A document of pairs is related to itself if the array of pairs is. -/
lemma run_documentOfPairs {array : Reading} (h : L.Reads array) :
    L.Keeps (some Γ) (L.Rel Γ) (Render.documentOfPairs array) := by
  unfold Render.documentOfPairs
  refine run_warn (L.bind (h.source Γ) fun a a' ha => run_alias fun label => L.pure ?_)
  obtain @⟨f, g, path, each, hfg⟩ := ha
  have hfg := L.mono (Γ.le_inside_rows [⟨label, .columns ["k", "v", "k0", "v1"]⟩]) hfg
  refine rel_subquery ?_ ?_
  · simp [Bracket.Declared, Bracket.labels, Fragment.ident, Fragment.ofToken]
  · refine rel_append (rel_append (rel_append (rel_text _) ?_) (rel_text _)) ?_
    · change L.Rel (Γ.inside (.rows [⟨label, .columns ["k", "v", "k0", "v1"]⟩])) _ _
      mono <;> decide
    · refine rel_append (rel_append (rel_elementTable ?_ hfg) (rel_text _)) (rel_ident _)
      exact ⟨rel_text _, rel_text _, rel_text _, rel_text _⟩

/-- An operator on objects with enough operands is related to itself if they are. -/
lemma run_object {op : ObjectOp} {rs : List Reading} (h : ∀ r ∈ rs, L.Reads r)
    (hn : op.positions ≤ rs.length) : L.Keeps (some Γ) (L.Rel Γ) (Render.object op rs) := by
  unfold Render.object
  split
  · obtain ⟨r, rest, rfl⟩ := List.exists_cons_of_length_pos hn
    exact run_mergedDocuments h
  · exact run_unsupported _
  · exact run_documentOfPairs (h _ List.mem_cons_self)
  · cases hn

/-- Counts of a stored table by related values are related. -/
lemma run_lookupSize {source : String} {value value' : Fragment} {foreignField : Path}
    (hs : L.Stored source) (hf : L.Rel Γ value value') :
    L.Run (some Γ) (L.Rel Γ) (Render.lookupSize source value foreignField)
      (Render.lookupSize source value' foreignField) := by
  unfold Render.lookupSize
  refine run_alias fun label => L.bind L.read fun env env' henv => L.pure ?_
  rw [henv.schema, henv.dataColumn, henv.dataColumn']
  have hf := L.mono (Γ.le_inside_rows [⟨label, .stored env'.schema source⟩]) hf
  have hd : L.Rel (Γ.inside (.rows [⟨label, .stored env'.schema source⟩]))
      (Fragment.column label L.data) (Fragment.column label L.data) :=
    rel_column (Ctx.sees_own (s := ⟨label, .stored env'.schema source⟩) List.mem_cons_self trivial)
  refine rel_subquery ?_ ?_
  · simp [Bracket.Declared, Bracket.labels, TableRef.fragment, Fragment.ident, Fragment.ofToken]
  · refine rel_append (rel_append ?_ (rel_text _)) 
      (rel_condition (.relation (rel_jsonValue henv.speaks hd) hf))
    exact rel_append (rel_text _) (rel_tableRef (.inl hs))

/-! ## Text -/

/-- A concatenation is related to itself if its parts are. -/
lemma run_concatenation {rs : List Reading} (h : ∀ r ∈ rs, L.Reads r) :
    L.Keeps (some Γ) (L.Rel Γ) (Render.concatenation rs) := by
  unfold Render.concatenation
  refine L.bind (run_mapM_self fun r hr => (h r hr).scalar Γ) fun fs gs hfs => ?_
  have hjoined := rel_joined " || " hfs
  have hzip : List.Forall₂ (fun a b : Reading × Fragment => a.1 = b.1 ∧ L.Rel Γ a.2 b.2)
      (rs.zip fs) (rs.zip gs) := by
    clear h hjoined
    induction hfs generalizing rs with
    | nil => simp
    | cons hfg _ ih =>
      cases rs with
      | nil => exact .nil
      | cons r rs => exact .cons ⟨rfl, hfg⟩ ih
  have hfilter := List.rel_filter (p := fun a => a.1.expr.literal?.isNone)
    (q := fun a => a.1.expr.literal?.isNone) (fun a b hab => by simp [hab.1]) hzip
  have hnull : List.Forall₂ (L.Rel Γ)
      (((rs.zip fs).filter fun a => a.1.expr.literal?.isNone).map
        fun a => (Condition.isNull a.2).fragment)
      (((rs.zip gs).filter fun a => a.1.expr.literal?.isNone).map
        fun a => (Condition.isNull a.2).fragment) := by
    rw [List.forall₂_map_left_iff, List.forall₂_map_right_iff]
    exact hfilter.imp fun a b hab => rel_condition (.isNull hab.2)
  dsimp only
  rw [isEmpty_eq_of_forall₂ hfilter]
  refine run_ite (fun _ => L.pure hjoined) fun _ => L.pure ?_
  mono

/-- If the expression is an integer without one behind it, a checked sum may end in an error. -/
def Summable (L : RenderLogic) (e : Expr) : Prop :=
  L.Checked → e.isLast = true → L.Fails (.structural .overflow)

/-- The same integer follows on both sides, or the sum is checked on both. -/
lemma run_successor {i : Int} (h : L.Checked → isInt64 (i + 1) = false →
    L.Fails (.structural .overflow)) : L.Keeps row Eq (Render.successor i) := by
  unfold Render.successor
  refine L.bind L.read fun env env' henv => ?_
  rw [← henv.checked]
  split
  · next hsum =>
    rw [Bool.and_eq_true, Bool.not_eq_true'] at hsum
    exact L.bind (A := Eq) (run_fault (h (henv.unchecked hsum.1) hsum.2)) fun _ _ _ => L.pure rfl
  · exact L.pure rfl

/-- A position is counted from one; the sum may fail where it is checked. -/
lemma run_fromOne {index : Reading} (h : L.Reads index) (hsum : L.Summable index.expr) :
    L.Keeps (some Γ) (L.Rel Γ) (Render.fromOne index) := by
  unfold Render.fromOne
  split
  · next i hi =>
    refine L.bind (run_successor fun hc hlast => hsum hc ?_) ?_
    · rw [Expr.isLast, hi, Option.any_some, hlast]
      rfl
    · rintro _ _ rfl
      exact L.literal
  · refine L.bind (h.number Γ) fun f g hfg => L.pure ?_
    mono

/-- A part of a text is related to itself if the text and its bounds are. -/
lemma run_substring {text start : Reading} {length : Option Reading} (ht : L.Reads text)
    (hs : L.Reads start) (hsum : L.Summable start.expr) (hl : ∀ r ∈ length, L.Reads r) :
    L.Keeps (some Γ) (L.Rel Γ) (Render.substring text start length) := by
  unfold Render.substring
  refine L.bind (ht.scalar Γ) fun t t' ht => L.bind (run_fromOne hs hsum) fun s s' hs => ?_
  cases length with
  | none =>
    exact L.pure (rel_call₂ ht hs)
  | some n =>
    refine run_ite (fun _ => L.pure ?_) fun _ =>
      L.bind ((hl n rfl).number Γ) fun f g hfg => L.pure ?_
    · exact rel_call₂ ht hs
    · exact rel_call₃ ht hs hfg

/-- A trimmed text is related to itself if the text and the characters are. -/
lemma run_trimmed {op : TextOp} {text : Reading} {chars : Option Reading} (ht : L.Reads text)
    (hc : ∀ r ∈ chars, L.Reads r) : L.Keeps (some Γ) (L.Rel Γ) (Render.trimmed op text chars) := by
  unfold Render.trimmed
  refine L.bind (ht.scalar Γ) fun t t' ht => ?_
  split
  · exact L.pure (rel_call₁ ht)
  · refine L.bind ((hc _ rfl).scalar Γ) fun f g hfg => L.pure ?_
    exact rel_call₂ (rel_call₂ ht hfg) hfg
  · dsimp only
    split
    · exact L.pure (rel_call₁ ht)
    · refine L.bind ((hc _ rfl).scalar Γ) fun f g hfg => L.pure ?_
      exact rel_call₂ ht hfg

/-- The pieces of a text are related to themselves if the text and the separator are. -/
lemma run_pieces {text separator : Reading} (ht : L.Reads text) (hs : L.Reads separator) :
    L.Keeps (some Γ) (L.Rel Γ) (Render.pieces text separator) := by
  unfold Render.pieces
  refine run_warn (L.bind (ht.scalar Γ) fun t t' ht => L.bind (hs.scalar Γ) fun s s' hs => ?_)
  refine L.pure ?_
  mono

/-- A text is cut at a bound, if there is one. -/
lemma run_upTo {text : Reading} {stop : Option Reading} (ht : L.Reads text)
    (hs : ∀ r ∈ stop, L.Reads r) : L.Keeps (some Γ) (L.Rel Γ) (Render.upTo text stop) := by
  cases stop with
  | none => exact ht.scalar Γ
  | some n =>
    refine L.bind (ht.scalar Γ) fun t t' ht => L.bind ((hs n rfl).number Γ) fun f g hfg => ?_
    exact L.pure (rel_call₃ ht (rel_text _) hfg)

/-- A search in a text is related to itself if all that bounds it is. -/
lemma run_textPosition {text part : Reading} {start stop : Option Reading} (ht : L.Reads text)
    (hp : L.Reads part) (hstart : ∀ r ∈ start, L.Reads r ∧ L.Summable r.expr)
    (hstop : ∀ r ∈ stop, L.Reads r) :
    L.Keeps (some Γ) (L.Rel Γ) (Render.textPosition text part start stop) := by
  unfold Render.textPosition
  refine L.bind (run_upTo ht hstop) fun t t' ht => L.bind (hp.scalar Γ) fun p p' hp => ?_
  cases start with
  | none =>
    exact L.pure (rel_append (rel_call₂ ht hp) (rel_text _))
  | some s =>
    refine L.bind (run_fromOne (hstart s rfl).1 (hstart s rfl).2) fun s s' hs => L.pure ?_
    exact rel_append (rel_call₃ ht hp hs) (rel_text _)

instance ordinary_regexFlags (cs : List Char) : (Render.regexFlags cs).Ordinary := by
  induction cs with
  | nil => exact ⟨trivial⟩
  | cons c cs ih =>
    rw [Render.regexFlags]
    infer_instance

/-- The flags of a pattern are written as one text or none. -/
lemma run_regexOptions {options : Option Reading} :
    L.Keeps (some Γ) (List.Forall₂ (L.Rel Γ)) (liftM (Render.regexOptions options)) := by
  unfold Render.regexOptions
  split
  · exact L.pure .nil
  · split
    · exact run_fault (L.fails rfl)
    · next text _ =>
      cases hflags : Render.regexFlags text.toList with
      | error e => exact L.fail (fails_of hflags)
      | ok flags =>
        refine L.pure ?_
        split <;> mono

/-- A match with a pattern is related to itself if the text and the pattern are. -/
lemma run_regexTest {text pattern : Reading} {options : Option Reading} (ht : L.Reads text)
    (hp : L.Reads pattern) :
    L.Keeps (some Γ) (L.Cond Γ) (Render.regexTest text pattern options) := by
  unfold Render.regexTest
  refine L.bind run_regexOptions fun fs gs hfs => ?_
  refine L.bind (ht.scalar Γ) fun t t' ht => L.bind (hp.scalar Γ) fun p p' hp => L.pure ?_
  have hall := List.rel_append (.cons ht (.cons hp .nil)) hfs
  exact .test (rel_call hall)

/-- What a pattern finds is related to itself if the text and the pattern are. -/
lemma run_regexMatch {text pattern : Reading} {options : Option Reading} (ht : L.Reads text)
    (hp : L.Reads pattern) :
    L.Keeps (some Γ) (L.Rel Γ) (Render.regexMatch text pattern options) := by
  unfold Render.regexMatch
  refine run_warn (L.bind run_regexOptions fun fs gs hfs => ?_)
  refine L.bind (ht.scalar Γ) fun t t' ht => L.bind (hp.scalar Γ) fun p p' hp => L.pure ?_
  have hposition : L.Rel Γ (Fragment.call "REGEXP_INSTR" ([t, p, "1", "1", "0"] ++ fs))
      (Fragment.call "REGEXP_INSTR" ([t', p', "1", "1", "0"] ++ gs)) :=
    rel_call (.cons ht (.cons hp (.cons (rel_text _) (.cons (rel_text _)
      (.cons (rel_text _) hfs)))))
  have hfound : L.Rel Γ (Fragment.call "REGEXP_SUBSTR" ([t, p, "1", "1"] ++ fs))
      (Fragment.call "REGEXP_SUBSTR" ([t', p', "1", "1"] ++ gs)) :=
    rel_call (.cons ht (.cons hp (.cons (rel_text _) (.cons (rel_text _) hfs))))
  refine rel_cases_none (.cons (branch_cond ?_ (rel_call₃ ?_ ?_ ?_)) .nil)
  · exact .relation hposition (rel_text _)
  · exact rel_separated (rel_string _) hfound
  · exact rel_append (rel_separated (rel_string _) hposition) (rel_text _)
  · exact rel_separated (rel_string _) (rel_call .nil)

/-- A text with its first occurrence replaced is related to itself if all three texts are. -/
lemma run_replacedOnce {text find replacement : Reading} (ht : L.Reads text) (hf : L.Reads find)
    (hr : L.Reads replacement) :
    L.Keeps (some Γ) (L.Rel Γ) (Render.replacedOnce text find replacement) := by
  unfold Render.replacedOnce
  refine L.bind (ht.scalar Γ) fun t t' ht => L.bind (hf.scalar Γ) fun f f' hf => ?_
  refine L.bind (hr.scalar Γ) fun r r' hr => L.pure ?_
  have hposition : L.Rel Γ (Fragment.call "INSTR" [t, f]) (Fragment.call "INSTR" [t', f']) :=
    rel_call₂ ht hf
  refine rel_cases_some (.cons (branch_cond (.relation hposition (rel_text _)) ?_) .nil) ht
  refine rel_separated (rel_separated ?_ hr) ?_
  · exact rel_call₃ ht (rel_text _) (rel_append hposition (rel_text _))
  · exact rel_call₂ ht (rel_separated hposition (rel_call₁ hf))

/-- An operator on texts is related to itself, but for the one that decides something. -/
lemma run_text {op : TextOp} {rs : List Reading} (hop : op ≠ .regexMatch)
    (h : ∀ r ∈ rs, L.Reads r) (hsum : ∀ r ∈ op.counted rs, L.Summable r.expr)
    (hn : op.positions ≤ rs.length) : L.Keeps (some Γ) (L.Rel Γ) (Render.text op rs) := by
  have hcall (name : String) [Common name] {t : Reading} (ht : L.Reads t) :
      L.Keeps (some Γ) (L.Rel Γ) (do return Fragment.call name [← t.scalar]) :=
    L.bind (ht.scalar Γ) fun f g hfg => L.pure (rel_call₁ hfg)
  unfold Render.text
  split <;> try simp only [List.forall_mem_cons] at h
  · exact run_concatenation h
  · exact hcall _ h.1
  · exact hcall _ h.1
  · exact run_substring h.1 h.2.1 (hsum _ List.mem_cons_self)
      fun r hr => h.2.2 r (List.mem_of_mem_head? hr)
  · exact run_trimmed h.1 fun r hr => h.2 r (List.mem_of_mem_head? hr)
  · exact run_trimmed h.1 fun r hr => h.2 r (List.mem_of_mem_head? hr)
  · exact run_trimmed h.1 fun r hr => h.2 r (List.mem_of_mem_head? hr)
  · refine L.bind (h.1.scalar Γ) fun f g hfg => L.pure ?_
    exact rel_call₂ (rel_call₁ hfg) (rel_text _)
  · exact run_pieces h.1 h.2.1
  · exact run_textPosition h.1 h.2.1
      (fun r hr => ⟨h.2.2 r (List.mem_of_getElem? hr), hsum r (TextOp.mem_counted_indexOf hr)⟩)
      (fun r hr => h.2.2 r (List.mem_of_getElem? hr))
  · exact run_regexMatch h.1 h.2.1
  · exact run_replacedOnce h.1 h.2.1 h.2.2.1
  · refine L.bind (h.1.scalar Γ) fun t t' ht => L.bind (h.2.1.scalar Γ) fun f f' hf => ?_
    refine L.bind (h.2.2.1.scalar Γ) fun r r' hr => L.pure ?_
    exact rel_call₃ ht hf hr
  · -- no operator is left whose positions all have arguments
    exfalso
    clear h hcall
    rcases rs with _ | ⟨_, _ | ⟨_, _ | _⟩⟩ <;> cases op <;> grind [TextOp.positions]

/-! ## Conversions -/

/-- Related texts of dates stay related with an offset behind them. -/
lemma rel_withOffset {f g : Fragment} (h : L.Rel Γ f g) :
    L.Rel Γ (Render.withOffset f) (Render.withOffset g) :=
  rel_call₃ h (rel_string _) (rel_string _)

/-- Casts of related values for two releases are related. -/
lemma run_cast {d d' : Dialect} (hd : L.Speaks d d') {target : Conversion} {f g : Fragment}
    (h : L.Rel Γ f g) :
    L.Run (some Γ) (L.Rel Γ) (liftM (Render.cast d target f))
      (liftM (Render.cast d' target g)) := by
  unfold Render.cast
  cases target with
  | toInt | toLong => exact L.pure (rel_call₁ (rel_call₁ h))
  | toDouble | toDecimal | toString => exact L.pure (rel_call₁ h)
  | toBool =>
    refine L.pure (rel_cases_some (.cons (branch_cond (.isNull h) (rel_text _)) ?_)
      (rel_bool hd true))
    refine .cons (branch_cond ?_ (rel_bool hd false)) .nil
    exact .among (rel_call₁ (rel_call₁ h)) forall₂_falseTexts
  | toDate => exact L.pure (rel_call₂ (rel_withOffset h) (rel_string _))
  | toObjectId => exact L.pure h
  | type | convert | isNumber => exact run_fault (L.fails rfl)

/-- A conversion can fail for both of two related values, or for neither. -/
lemma validity_rel (target : Conversion) {f g : Fragment} (h : L.Rel Γ f g) :
    Option.Rel (L.Rel Γ) (Render.validity? target f) (Render.validity? target g) := by
  unfold Render.validity?
  cases target with
  | toInt | toLong | toDecimal | toDouble =>
    exact .some (rel_call₁ (rel_append h (rel_text _)))
  | toDate => exact .some (rel_call₂ (rel_append (rel_withOffset h) (rel_text _)) (rel_string _))
  | _ => exact .none

/-- A branch for a condition is there if there is something to choose. -/
lemma run_conversionBranch {c c' : Condition} {r : Option Reading} (hc : L.Cond Γ c c')
    (h : ∀ x ∈ r, L.Reads x) :
    L.Run (some Γ) (List.Forall₂ (L.Branch Γ)) (Render.branch c r) (Render.branch c' r) := by
  cases r with
  | none => exact L.pure .nil
  | some x =>
    exact L.bind ((h x rfl).scalar Γ) fun f g hfg => L.pure (.cons (branch_cond hc hfg) .nil)

/-- A conversion with fallbacks is related to itself if the value and the fallbacks are. -/
lemma run_converted {arg : Reading} {target : Option Conversion} {onError onNull : Option Reading}
    (ha : L.Reads arg) (he : ∀ r ∈ onError, L.Reads r) (hn : ∀ r ∈ onNull, L.Reads r) :
    L.Keeps (some Γ) (L.Rel Γ) (Render.converted arg target onError onNull) := by
  unfold Render.converted
  cases target with
  | none => exact run_fault (L.fails rfl)
  | some target =>
    refine L.bind (ha.scalar Γ) fun f g hfg => L.bind L.read fun env env' henv => ?_
    refine L.bind (run_cast henv.speaks hfg) fun v w hvw => ?_
    refine run_ite (fun _ => L.pure hvw) fun _ => ?_
    refine L.bind (run_conversionBranch (Cond.isNull hfg) hn) fun bs bs' hbs => ?_
    have hcases : ∀ cs cs', List.Forall₂ (L.Branch Γ) cs cs' →
        L.Rel Γ (Fragment.cases (bs ++ cs) (some v)) (Fragment.cases (bs' ++ cs') (some w)) :=
      fun cs cs' hcs => rel_cases_some (List.rel_append hbs hcs) hvw
    have hcheck := validity_rel target hfg
    generalize Render.validity? target f = o, Render.validity? target g = o' at hcheck
    cases hcheck with
    | none => exact L.pure (hcases _ _ .nil)
    | some hc =>
      exact L.bind (run_conversionBranch (Cond.relation hc (rel_text _)) he) fun cs cs' hcs =>
        L.pure (hcases cs cs' hcs)

/-- What an admissible expression stands for has related places, or none on both sides. -/
lemma placeOf_rel {env env' : Env} (h : L.EnvRel L.data (some Γ) env env') {e : Expr}
    (he : L.Admissible e) : L.PlaceRel Γ (Render.placeOf? env e) (Render.placeOf? env' e) := by
  unfold Render.placeOf?
  cases hf : e.field? with
  | none => exact .none
  | some f => exact (h.resolve (he.views.field hf)).location

/-- The name of a type is related to itself if the value is. -/
lemma run_typeName {arg : Reading} (h : L.Reads arg) :
    L.Keeps (some Γ) (L.Rel Γ) (Render.typeName arg) := by
  unfold Render.typeName
  split
  · exact L.literal
  · refine run_ite (fun _ => L.literal) fun _ => run_warn ?_
    refine L.bind L.read fun env env' henv => ?_
    have hp := placeOf_rel henv h.expr
    have hspeaks := henv.speaks
    generalize Render.placeOf? env arg.expr = p, Render.placeOf? env' arg.expr = p' at hp
    cases hp with
    | @some doc doc' path hd =>
      refine L.pure ?_
      have ht : L.Rel Γ (jsonValue env.dialect doc (path ++ ".type()") none)
          (jsonValue env'.dialect doc' (path ++ ".type()") none) := rel_jsonValue hspeaks hd
      refine rel_call₂ (rel_call (.cons ht (List.rel_append (forall₂_self fun f hf => ?_) ?_)))
        (rel_string _)
      · obtain ⟨_, _, rfl⟩ := List.mem_map.1 hf
        exact rel_string _
      · exact .cons ht .nil
    | none =>
      refine L.bind (h.scalar Γ) fun f g hfg => L.pure ?_
      refine rel_cases_some (.cons (branch_cond (.isNull hfg) (rel_string _)) ?_) (rel_string _)
      refine .cons (branch_cond (.relation ?_ (rel_text _)) (rel_string _)) .nil
      exact rel_call₁ (rel_append hfg (rel_text _))

/-- A test for a number is related to itself if the value is. -/
lemma run_numberTest {arg : Reading} (h : L.Reads arg) :
    L.Keeps (some Γ) (L.Cond Γ) (Render.numberTest arg) := by
  unfold Render.numberTest
  split
  · exact L.pure (.constant _)
  · refine L.bind L.read fun env env' henv => ?_
    have hp := placeOf_rel henv h.expr
    have hspeaks := henv.speaks
    generalize Render.placeOf? env arg.expr = p, Render.placeOf? env' arg.expr = p' at hp
    cases hp with
    | some hd =>
      refine L.pure ?_
      mono
    | none =>
      refine run_warn (L.bind (h.scalar Γ) fun f g hfg => L.pure ?_)
      mono

/-- Every conversion is related to itself if its value and its fallbacks are. -/
lemma run_conversion {op : Conversion} {arg : Reading} {target : Option Conversion}
    {onError onNull : Option Reading} (ha : L.Reads arg) (he : ∀ r ∈ onError, L.Reads r)
    (hn : ∀ r ∈ onNull, L.Reads r) :
    L.Keeps (some Γ) (L.Rel Γ) (Render.conversion op arg target onError onNull) := by
  unfold Render.conversion
  split
  · exact run_converted ha he hn
  · exact run_typeName ha
  · refine L.bind (ha.scalar Γ) fun f g hfg => L.bind L.read fun env env' henv => ?_
    exact run_cast henv.speaks hfg

end RenderLogic

end PipelineSql
