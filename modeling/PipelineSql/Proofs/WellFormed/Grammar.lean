import PipelineSql.Proofs.WellFormed.Expr

/-!
# Reading well-formed expressions

Every rule of the grammars of expressions and filters builds a well-formed expression out of phrases
that spell nothing else.
-/

namespace PipelineSql

open Result

/-- A phrase that spells only well-formed expressions. -/
structure Phrase.SpellsExpr (p : Phrase) : Prop where
  expr : Ensures p.expr Expr.Parsed
  filter : Ensures p.filter Expr.Parsed
  operators : ∀ path, Ensures (p.operators path) Expr.Parsed

namespace Grammar

open Phrase PipelineSql.Expr

variable {arg : Phrase} {doc : Phrases}

instance {α : Type} (ofName? : String → Option α) (name : String) :
    Ordinary (known ofName? name) := by
  unfold known
  split
  · infer_instance
  · exact ⟨rfl⟩

instance (name : String) : Ordinary (elementName doc name) := by
  unfold elementName
  infer_instance

/-- A required key that holds an expression. -/
lemma ensures_requiredExpr {α : Type} {A : α → Prop} {k : Expr → Result α}
    (h : ∀ entry ∈ doc, Throughout SpellsExpr entry.2) (key what : String)
    (hk : ∀ e, e.Parsed → Ensures (k e) A) :
    Ensures (doc.required key what >>= fun p => p.expr >>= k) A :=
  ensures_bind (ensures_required h key what) fun _ hp => ensures_bind hp.self.expr hk

/-- An optional expression is parsed if it is there. -/
lemma ensures_optionalExpr (h : ∀ entry ∈ doc, Throughout SpellsExpr entry.2) (key : String) :
    Ensures (doc.optional key (·.expr)) fun o => ∀ e ∈ o, e.Parsed :=
  ensures_optional fun _ hp => (throughout_of_lookup h hp).self.expr

/-- Operands are parsed, be they one or a list. -/
lemma ensures_operands (h : arg.Throughout SpellsExpr) :
    Ensures (operands arg) fun es => ∀ e ∈ es, e.Parsed := by
  unfold operands
  split
  · exact ensures_mapM fun q hq => (h.items q hq).self.expr
  · exact ensures_bind h.self.expr fun _ he => ensures_pure (List.forall_mem_singleton.2 he)

/-- The only operand is parsed. -/
lemma ensures_operand (name : String) (h : arg.Throughout SpellsExpr) :
    Ensures (operand name arg) Expr.Parsed := by
  refine ensures_bind (ensures_operands h) fun es hes => ?_
  split
  · exact ensures_pure (hes _ List.mem_cons_self)
  · exact ensures_error rfl

/-! ## Expressions -/

/-- A choice has three operands, by position or by name. -/
lemma ensures_cond (h : arg.Throughout SpellsExpr) : Ensures (cond arg) Expr.Parsed := by
  unfold cond
  split
  · refine ensures_then fun _ => ?_
    refine ensures_requiredExpr h.entries _ _ fun test ht => ?_
    refine ensures_requiredExpr h.entries _ _ fun yes hy => ?_
    exact ensures_requiredExpr h.entries _ _ fun no hn => ensures_pure (parsed_cond ht hy hn)
  · refine ensures_bind (ensures_operands h) fun es hes => ?_
    split
    · simp only [List.forall_mem_cons] at hes
      exact ensures_pure (parsed_cond hes.1 hes.2.1 hes.2.2.1)
    · exact ensures_error rfl

/-- A branch has a test and a value. -/
lemma ensures_branch (h : arg.Throughout SpellsExpr) :
    Ensures (branch arg) fun b => b.1.Parsed ∧ b.2.Parsed := by
  refine ensures_bind (ensures_document h _) fun doc hdoc => ensures_then fun _ => ?_
  refine ensures_requiredExpr hdoc _ _ fun test ht => ?_
  exact ensures_requiredExpr hdoc _ _ fun value hv => ensures_pure ⟨ht, hv⟩

/-- A switch has branches and may have a default. -/
lemma ensures_switch (h : arg.Throughout SpellsExpr) : Ensures (switch arg) Expr.Parsed := by
  refine ensures_bind (ensures_document h _) fun doc hdoc => ensures_then fun _ => ?_
  refine ensures_bind (ensures_required hdoc _ _) fun p hp => ?_
  refine ensures_bind (ensures_array hp _) fun items hitems => ?_
  refine ensures_bind (ensures_mapM fun q hq => ensures_branch (hitems q hq)) fun bs hbs => ?_
  exact ensures_bind (ensures_optionalExpr hdoc _) fun default hd => ensures_ofSwitch hbs hd

/-- A conversion has an input and may have fallbacks. -/
lemma ensures_convert (h : arg.Throughout SpellsExpr) : Ensures (convert arg) Expr.Parsed := by
  refine ensures_bind (ensures_document h _) fun doc hdoc => ensures_then fun _ => ?_
  refine ensures_then fun _ => ensures_then fun target => ?_
  refine ensures_requiredExpr hdoc _ _ fun input hi => ?_
  refine ensures_bind (ensures_optionalExpr hdoc _) fun onError he => ?_
  refine ensures_bind (ensures_optionalExpr hdoc _) fun onNull hn => ?_
  exact ensures_ofConvert target hi he hn

/-- Arguments by name are taken in a fixed order. -/
lemma ensures_namedArguments (h : ∀ entry ∈ doc, Throughout SpellsExpr entry.2) (what : String)
    (keys : List String) :
    Ensures (namedArguments doc what keys) fun es => ∀ e ∈ es, e.Parsed := by
  induction keys with
  | nil => exact ensures_pure (List.forall_mem_nil _)
  | cons key rest ih =>
    rw [namedArguments]
    split
    · rename_i hp
      refine ensures_bind (throughout_of_lookup h hp).self.expr fun e he => ?_
      exact ensures_bind ih fun es hes => ensures_pure (List.forall_mem_cons.2 ⟨he, hes⟩)
    · exact ensures_ite (ensures_error rfl) (ensures_pure (List.forall_mem_nil _))

/-- Operators on texts take their arguments by position or by name. -/
lemma ensures_text (op : TextOp) (h : arg.Throughout SpellsExpr) :
    Ensures (text op arg) Expr.Parsed := by
  unfold text
  split
  · exact ensures_bind (ensures_operands h) fun _ hes => ensures_ofText op hes
  · refine ensures_bind (ensures_document h _) fun doc hdoc => ensures_then fun _ => ?_
    exact ensures_bind (ensures_namedArguments hdoc _ _) fun _ hes => ensures_ofText op hes

/-- A part of a date takes the date, or an object with it. -/
lemma ensures_date (part : DatePart) (h : arg.Throughout SpellsExpr) :
    Ensures (date part arg) Expr.Parsed := by
  unfold date
  dsimp only
  split
  · rename_i hp
    have hinput := (throughout_of_lookup h.entries hp).self.expr
    split
    · exact ensures_then fun _ => ensures_then fun _ =>
        ensures_bind hinput fun _ he => ensures_pure (parsed_date part he)
    · exact ensures_then fun _ =>
        ensures_bind hinput fun _ he => ensures_pure (parsed_date part he)
  · exact ensures_bind (ensures_operand _ h) fun _ he => ensures_pure (parsed_date part he)

/-- Operators on arrays check the number of their arguments. -/
lemma ensures_arrayOperator (op : ArrayOp) (h : arg.Throughout SpellsExpr) :
    Ensures (array op arg) Expr.Parsed := by
  unfold array
  split
  · refine ensures_bind (ensures_document h _) fun doc hdoc => ensures_then fun _ => ?_
    refine ensures_requiredExpr hdoc _ _ fun input hi => ensures_then fun name => ?_
    refine ensures_requiredExpr hdoc _ _ fun test ht => ?_
    exact ensures_bind (ensures_optionalExpr hdoc _) fun limit hl => ensures_ofFilter name hi ht hl
  · refine ensures_bind (ensures_document h _) fun doc hdoc => ensures_then fun _ => ?_
    refine ensures_requiredExpr hdoc _ _ fun input hi => ensures_then fun name => ?_
    exact ensures_requiredExpr hdoc _ _ fun body hb => ensures_ofMap name hi hb
  · refine ensures_bind (ensures_document h _) fun doc hdoc => ensures_then fun _ => ?_
    refine ensures_requiredExpr hdoc _ _ fun input hi => ?_
    refine ensures_requiredExpr hdoc _ _ fun initial hinitial => ?_
    exact ensures_requiredExpr hdoc _ _ fun body hb =>
      ensures_pure (parsed_ofReduce hi hinitial hb)
  · refine ensures_bind (ensures_document h _) fun doc hdoc => ensures_then fun _ => ?_
    refine ensures_requiredExpr hdoc _ _ fun input hi => ?_
    exact ensures_requiredExpr hdoc _ _ fun sortBy hs => ensures_pure (parsed_ofSortArray hi hs)
  · exact ensures_bind (ensures_operands h) fun _ hes => ensures_ofArray op hes

/-- A comparison has two operands. -/
lemma ensures_comparison (op : Comparison) (h : arg.Throughout SpellsExpr) :
    Ensures (comparison op arg) Expr.Parsed := by
  refine ensures_bind (ensures_operands h) fun es hes => ?_
  split
  · simp only [List.forall_mem_cons] at hes
    exact ensures_ofCompare op hes.1 hes.2.1
  · exact ensures_error rfl

/-- Every family of operators reads well-formed expressions. -/
lemma ensures_families (name : String) (h : arg.Throughout SpellsExpr) {r : Result Expr}
    (hr : some r ∈ families name arg) : Ensures r Expr.Parsed := by
  have hoperands := ensures_operands h
  simp only [families, List.mem_cons, List.not_mem_nil, or_false, eq_comm (a := some r),
    Option.map_eq_some_iff] at hr
  obtain ⟨op, -, rfl⟩ | ⟨op, -, rfl⟩ | ⟨op, -, rfl⟩ | ⟨op, -, rfl⟩ | ⟨part, -, rfl⟩ |
    ⟨op, -, rfl⟩ | ⟨op, -, rfl⟩ | ⟨op, -, rfl⟩ := hr
  · exact ensures_comparison op h
  · exact ensures_bind hoperands fun _ hes => ensures_ofLogic op hes
  · exact ensures_bind hoperands fun _ hes => ensures_ofArith op hes
  · exact ensures_text op h
  · exact ensures_date part h
  · exact ensures_arrayOperator op h
  · exact ensures_bind (ensures_operand name h) fun _ he => ensures_ofConversion op he
  · exact ensures_bind hoperands fun _ hes => ensures_ofObject op hes

/-- Every operator is read as an expression that is parsed. -/
lemma ensures_operator (name : String) (h : arg.Throughout SpellsExpr) :
    Ensures (operator name arg) Expr.Parsed := by
  have hoperands := ensures_operands h
  unfold operator
  split
  · exact ensures_then fun l => ensures_pure (parsed_lit l)
  · exact ensures_cond h
  · exact ensures_bind hoperands fun _ hes => ensures_ofIfNull hes
  · exact ensures_switch h
  · exact ensures_convert h
  · exact ensures_bind hoperands fun _ hes => ensures_ofArray .contains hes
  · cases hr : (families name arg).findSome? id with
    | none => exact ensures_error rfl
    | some r =>
      obtain ⟨o, ho, rfl⟩ := List.exists_of_findSome?_eq_some hr
      exact ensures_families name h ho

/-- A field of a document has a name and an expression. -/
lemma ensures_documentField (name : String) (h : arg.Throughout SpellsExpr) :
    Ensures (do
      if isReference name then fault (.mixedOperator name)
      checkFieldName name
      return (name, ← arg.expr)) fun f =>
        (Path.ofString f.1).isFieldName = true ∧ f.2.Parsed := by
  have hfield : Ensures (do checkFieldName name; return (name, ← arg.expr)) fun f =>
      (Path.ofString f.1).isFieldName = true ∧ f.2.Parsed :=
    ensures_bind (ensures_checkFieldName name) fun _ hname =>
      ensures_bind h.self.expr fun _ he => ensures_pure ⟨hname, he⟩
  split
  · exact ensures_error rfl
  · exact hfield

/-- A document is read field by field. -/
lemma ensures_documentFields (h : ∀ entry ∈ doc, Throughout SpellsExpr entry.2) :
    Ensures (document doc) Expr.Parsed := by
  refine ensures_bind (ensures_mapM fun entry hentry =>
    ensures_documentField entry.1 (h entry hentry)) fun fields hf => ensures_pure ?_
  exact (parsed_fields (fun f hmem => (hf f hmem).1) fun f hmem => (hf f hmem).2).1

/-- A reference is a field or a variable. -/
lemma ensures_reference (s : String) : Ensures (reference s) Expr.Parsed := by
  unfold reference
  split
  · exact ensures_ofVariable s
  · split
    · exact ensures_ofField s
    · exact ensures_pure (parsed_lit _)

/-- An array of constants is a literal. -/
lemma ensures_arrayLiteral (items : List Json) :
    Ensures (arrayLiteral items) Expr.Parsed := by
  unfold arrayLiteral
  split
  · exact ensures_error rfl
  · split
    · exact ensures_pure (parsed_lit _)
    · exact ensures_error rfl

/-- An object is an operator or a document. -/
lemma ensures_object (h : ∀ entry ∈ doc, Throughout SpellsExpr entry.2) :
    Ensures (object doc) Expr.Parsed := by
  unfold object
  split
  · split
    · exact ensures_bind (ensures_single h _) fun entry hentry => ensures_operator entry.1 hentry
    · exact ensures_documentFields h
  · exact ensures_documentFields h

/-- An accumulator is read as an accumulation. -/
lemma ensures_accumulator (name : String) (h : arg.Throughout SpellsExpr) :
    Ensures (accumulator name arg) Expr.ParsedAccumulation := by
  unfold accumulator
  dsimp only
  refine ensures_bind (ensures_document h _) fun doc hdoc => ?_
  refine ensures_bind (ensures_single hdoc _) fun entry hentry => ensures_then fun op => ?_
  split
  · exact ensures_ite (ensures_ofAccumulate op (by simp)) (ensures_error rfl)
  · exact ensures_bind hentry.self.expr fun _ he => ensures_ofAccumulate op (by simpa using he)

/-! ## Filters -/

/-- All of the conditions, or the only one. -/
lemma ensures_allOf {es : List Expr} (h : ∀ e ∈ es, e.Parsed) :
    Ensures (allOf es) Expr.Parsed := by
  unfold allOf
  split
  · exact ensures_pure (parsed_lit _)
  · exact ensures_pure (h _ List.mem_cons_self)
  · exact ensures_ofLogic .and h

/-- A pattern in a filter is a text, with or without options. -/
lemma ensures_regex (path : String) (pattern : Phrase) (options : Option Phrase) :
    Ensures (regex path pattern options) Expr.Parsed := by
  refine ensures_bind (ensures_ofField path) fun field hfield => ensures_then fun pattern => ?_
  have hargs : ∀ e ∈ [field, lit (.string pattern)], e.Parsed :=
    List.forall_mem_cons.2 ⟨hfield, List.forall_mem_singleton.2 (parsed_lit _)⟩
  dsimp only
  split
  · exact ensures_ofText .regexMatch hargs
  · refine ensures_then fun flags => ensures_ofText .regexMatch ?_
    exact List.forall_mem_append.2 ⟨hargs, List.forall_mem_singleton.2 (parsed_lit _)⟩

/-- An operator of a filter is a condition, or belongs to another. -/
lemma ensures_queryOperator (path : String) (ops : Phrases) (name : String)
    (h : arg.Throughout SpellsExpr) :
    Ensures (queryOperator path ops name arg) fun o => ∀ e ∈ o, e.Parsed := by
  have hsome {r : Result Expr} (hr : Ensures r Expr.Parsed) :
      Ensures (do return some (← r)) fun o => ∀ e ∈ o, e.Parsed :=
    ensures_bind hr fun _ he => ensures_pure (by simpa using he)
  unfold queryOperator
  split
  · exact ensures_pure (by simp)
  · exact hsome (ensures_regex path arg _)
  · split
    · refine ensures_bind (ensures_fieldOfString path) fun f hf => ensures_pure ?_
      simpa using parsed_present hf.1 _
    · exact ensures_error rfl
  · refine ensures_then fun _ => ensures_bind (h.self.operators path) fun e he => ?_
    exact hsome (ensures_ofLogic .not (List.forall_mem_singleton.2 he))
  · refine ensures_bind (ensures_ofField path) fun field hfield => ?_
    have hinput := List.forall_mem_singleton.2 hfield
    refine ensures_bind (ensures_ofArray .size hinput) fun size hs => ?_
    exact ensures_then fun n => hsome (ensures_ofCompare .eq hs (parsed_lit _))
  · refine ensures_then fun op => ensures_bind (ensures_ofField path) fun field hfield => ?_
    exact ensures_then fun l => hsome (ensures_ofCompare op hfield (parsed_lit _))

/-- All conditions that there are. -/
lemma ensures_conditions {f : String × Phrase → Result (Option Expr)}
    (h : ∀ entry ∈ doc, Ensures (f entry) fun o => ∀ e ∈ o, e.Parsed) :
    Ensures (do allOf ((← doc.mapM f).filterMap id)) Expr.Parsed := by
  refine ensures_bind (ensures_mapM h) fun os hos => ensures_allOf fun e he => ?_
  obtain ⟨o, ho, rfl⟩ := List.mem_filterMap.1 he
  exact hos _ ho e rfl

/-- Operators on one field are all asked for. -/
lemma ensures_queryOperators (h : ∀ entry ∈ doc, Throughout SpellsExpr entry.2) (path : String) :
    Ensures (queryOperators doc path) Expr.Parsed := by
  unfold queryOperators
  dsimp only
  split
  · exact ensures_error rfl
  · refine ensures_ite (ensures_error rfl) (ensures_conditions fun entry hentry => ?_)
    exact ensures_queryOperator path doc entry.1 (h entry hentry)

/-- A condition on a field is a value or operators. -/
lemma ensures_fieldCondition (path : String) (h : arg.Throughout SpellsExpr) :
    Ensures (fieldCondition path arg) Expr.Parsed := by
  unfold fieldCondition
  split
  · exact ensures_ite (h.self.operators path) (ensures_error rfl)
  · refine ensures_bind (ensures_ofField path) fun field hfield => ?_
    exact ensures_then fun l => ensures_ofCompare .eq hfield (parsed_lit _)

/-- An entry of a filter is a connective, an expression or a condition on a field. -/
lemma ensures_filterEntry (key : String) (h : arg.Throughout SpellsExpr) :
    Ensures (filterEntry key arg) fun o => ∀ e ∈ o, e.Parsed := by
  have hsome {r : Result Expr} (hr : Ensures r Expr.Parsed) :
      Ensures (do return some (← r)) fun o => ∀ e ∈ o, e.Parsed :=
    ensures_bind hr fun _ he => ensures_pure (by simpa using he)
  have hconnective : Ensures (do
      let op ← known Connective.ofName? key
      let operands ← (← arg.array key).mapM (·.filter)
      return some (← Expr.ofLogic op operands)) fun o => ∀ e ∈ o, e.Parsed := by
    refine ensures_then fun op => ensures_bind (ensures_array h key) fun items hitems => ?_
    refine ensures_bind (ensures_mapM fun q hq => (hitems q hq).self.filter) fun es hes => ?_
    exact hsome (ensures_ofLogic op hes)
  unfold filterEntry
  split
  · exact hconnective
  · exact hconnective
  · exact hconnective
  · exact hsome h.self.expr
  · exact ensures_pure (by simp)
  · exact ensures_ite (ensures_error rfl) (hsome (ensures_fieldCondition key h))

/-- A filter asks for all of its entries. -/
lemma ensures_filter (h : ∀ entry ∈ doc, Throughout SpellsExpr entry.2) :
    Ensures (filter doc) Expr.Parsed :=
  ensures_conditions fun entry hentry => ensures_filterEntry entry.1 (h entry hentry)

end Grammar

end PipelineSql
