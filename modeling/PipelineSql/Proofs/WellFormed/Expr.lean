import PipelineSql.Proofs.Nesting
import PipelineSql.Proofs.Reading

/-!
# Well-formed expressions

An expression is well formed if every operator in it has the arguments that it takes, every name in
it is admissible, and it holds no accumulator. Each constructor of sound expressions refuses what
would not be well formed at its own node, so it grants a well-formed result for well-formed
arguments, and so does each rule of the grammar for phrases that spell nothing else. What is read
declares no types of fields either.
-/

namespace PipelineSql

/-! ## Names -/

namespace Path

@[simp]
lemma toString_ofString (s : String) : (ofString s).toString = s := by
  rw [← String.toList_inj, toString, String.toList_intercalate, ofString, List.map_map]
  have hid : String.toList ∘ String.ofList = id := funext fun _ => String.toList_ofList
  rw [hid, List.map_id]
  exact List.intercalate_splitOn '.'

/-- The parts that a separator leaves do not hold it. -/
lemma not_mem_of_mem_splitOn {c : Char} {cs : List Char} :
    ∀ part ∈ cs.splitOn c, c ∉ part := by
  induction cs with
  | nil => simp [List.splitOn]
  | cons d cs ih =>
    rw [List.splitOn, List.splitOnP_cons_eq_if_modifyHead]
    obtain ⟨part, parts, hparts⟩ := List.exists_cons_of_ne_nil (List.splitOnP_ne_nil (· == c) cs)
    rw [List.splitOn, hparts] at ih
    obtain ⟨hpart, hrest⟩ := List.forall_mem_cons.1 ih
    rw [hparts]
    split
    · exact List.forall_mem_cons.2 ⟨List.not_mem_nil, ih⟩
    · rename_i hd
      have hd : c ≠ d := fun h => hd (beq_iff_eq.2 h.symm)
      exact List.forall_mem_cons.2 ⟨List.not_mem_cons_of_ne_of_not_mem hd hpart, hrest⟩

/-- A path that its own text spells. -/
def Spelled (p : Path) : Prop :=
  ofString p.toString = p

lemma spelled_ofString (s : String) : (ofString s).Spelled := by
  rw [Spelled, toString_ofString]

/-- A path of segments without the separator. -/
lemma spelled_of_segments {p : Path} (hp : p.segments ≠ [])
    (h : ∀ segment ∈ p.segments, '.' ∉ segment.toList) : p.Spelled := by
  obtain ⟨segments⟩ := p
  have hsplit := List.splitOn_intercalate '.' (List.forall_mem_map.2 h) (by simpa using hp)
  rw [Spelled, ofString, toString, String.toList_intercalate]
  change Path.mk ((List.splitOn '.' (['.'].intercalate _)).map String.ofList) = _
  rw [hsplit, List.map_map]
  simp [Function.comp_def]

/-- What is left of a path without its first segments is spelled like any other path. -/
lemma spelled_of_suffix {s : String} {p : Path} (hp : p.segments ≠ [])
    (h : p.segments <:+ (ofString s).segments) : p.Spelled := by
  refine spelled_of_segments hp fun segment hsegment => ?_
  obtain ⟨cs, hcs, rfl⟩ := List.mem_map.1 (h.subset hsegment)
  rw [String.toList_ofList]
  exact not_mem_of_mem_splitOn cs hcs

lemma not_mem_of_isSegment {s : String} (h : isSegment s = true) : '.' ∉ s.toList := by
  intro hdot
  unfold isSegment at h
  split at h
  · cases h
  · next c cs hcs =>
    simp only [Bool.or_eq_true, Bool.and_eq_true, isDigits, hcs] at h
    rw [hcs] at hdot
    rcases h with ⟨hc, hword⟩ | hdigits
    · rcases List.mem_cons.1 hdot with rfl | hdot
      · rcases hc with hc | hc <;> cases hc
      · cases List.all_eq_true.1 hword _ hdot
    · cases List.all_eq_true.1 hdigits _ hdot

lemma segments_ne_nil_of_isFieldName {p : Path} (h : p.isFieldName = true) : p.segments ≠ [] := by
  obtain ⟨segments⟩ := p
  rintro rfl
  cases h

lemma spelled_of_isFieldName {p : Path} (h : p.isFieldName = true) : p.Spelled := by
  refine spelled_of_segments (segments_ne_nil_of_isFieldName h) fun segment hsegment => ?_
  simp only [isFieldName, Bool.and_eq_true] at h
  exact not_mem_of_isSegment (List.all_eq_true.1 h.1.1 segment hsegment)

/-- Different admissible names have different texts. -/
lemma toString_inj_of_isFieldName {p q : Path} (hp : p.isFieldName = true)
    (hq : q.isFieldName = true) (h : p.toString = q.toString) : p = q := by
  rw [← spelled_of_isFieldName hp, h, spelled_of_isFieldName hq]

/-- The check of the text of a path is one of the path. -/
lemma Spelled.ensures_check {p : Path} (h : p.Spelled) :
    Result.Ensures (checkFieldName p.toString) fun _ => p.isFieldName = true := by
  have hcheck := Result.ensures_checkFieldName p.toString
  rw [h] at hcheck
  exact hcheck

end Path

/-! ## Nodes -/

namespace ArrayOp

/-- Does the operator work on one array, beside its other arguments? -/
def takesInput : ArrayOp → Bool
  | concat | setUnion | setIntersection | setDifference | setEquals | setIsSubset => false
  | _ => true

/-- Does the operator need a position or a count? -/
def takesIndex : ArrayOp → Bool
  | elemAt | slice => true
  | _ => false

end ArrayOp

namespace Expr

/-- Are the arguments there that the operator of the node cannot do without? -/
def isComplete : Expr → Bool
  | .array op input index _ _ =>
    (input.isSome || !op.takesInput) && (index.isSome || !op.takesIndex)
  | .accumulate op arg => arg.isSome || op == .count
  | .convert op _ target _ _ => target.isSome || op != .convert
  | _ => true

/-- The field paths, the variables and the keys that the node itself names. -/
def fieldNames : Expr → List Path
  | .field f | .present f _ => [f.path]
  | .var name path => Path.ofString name :: path.toList
  | .array _ _ _ _ element => element.toList.map Path.ofString
  | .compoundId fields | .document fields => fields.map fun f => Path.ofString f.1
  | .lookupSize _ localField foreignField => [localField, foreignField]
  | _ => []

/-- A node that has the arguments that its operator takes, and admissible names. -/
structure NodeWellFormed (e : Expr) : Prop where
  shape : e.checkShape = .ok ()
  complete : e.isComplete = true
  names : ∀ p ∈ e.fieldNames, p.isFieldName = true
  tables : ∀ t ∈ e.table?, isTableName t = true

/-- All nodes are well formed, and none is an accumulator. -/
def WellFormed (e : Expr) : Prop :=
  ∀ n ∈ e.nodes, n.NodeWellFormed ∧ n.isAccumulator = false

/-- An accumulator whose argument is well formed. -/
inductive IsAccumulation : Expr → Prop where
  | mk {op arg} : (Expr.accumulate op arg).NodeWellFormed → (∀ e ∈ arg, WellFormed e) →
    IsAccumulation (.accumulate op arg)

/-- A well-formed node that declares no type. -/
structure NodeParsed (e : Expr) : Prop extends NodeWellFormed e where
  undeclared : e.declared? = none

/-- What is read as an expression: it is well formed and declares no types. -/
def Parsed (e : Expr) : Prop :=
  ∀ n ∈ e.nodes, n.NodeParsed ∧ n.isAccumulator = false

/-- What is read as an accumulator. -/
inductive ParsedAccumulation : Expr → Prop where
  | mk {op arg} : (Expr.accumulate op arg).NodeWellFormed → (∀ e ∈ arg, Parsed e) →
    ParsedAccumulation (.accumulate op arg)

lemma Parsed.wellFormed {e : Expr} (h : e.Parsed) : e.WellFormed :=
  fun n hn => ⟨(h n hn).1.toNodeWellFormed, (h n hn).2⟩

lemma Parsed.undeclared {e : Expr} (h : e.Parsed) : ∀ n ∈ e.nodes, n.declared? = none :=
  fun n hn => (h n hn).1.undeclared

lemma ParsedAccumulation.isAccumulation {e : Expr} (h : e.ParsedAccumulation) :
    e.IsAccumulation := by
  obtain ⟨hnode, harg⟩ := h
  exact .mk hnode fun e he => (harg e he).wellFormed

lemma ParsedAccumulation.undeclared {e : Expr} (h : e.ParsedAccumulation) :
    ∀ n ∈ e.nodes, n.declared? = none := by
  obtain ⟨_, harg⟩ := h
  refine forall_nodes.2 ⟨rfl, fun part hpart => ?_⟩
  exact (harg part (Option.mem_toList.1 hpart)).undeclared

lemma parsed_iff {e : Expr} :
    e.Parsed ↔
      (e.NodeParsed ∧ e.isAccumulator = false) ∧ ∀ part ∈ e.parts, part.Parsed :=
  forall_nodes

/-- A node that names nothing declares nothing. -/
lemma NodeParsed.unnamed {e : Expr} (shape : e.checkShape = .ok ())
    (complete : e.isComplete = true) (hn : e.fieldNames = []) (ht : e.table? = none) :
    e.NodeParsed where
  shape
  complete
  names := by simp [hn]
  tables := by simp [ht]
  undeclared := by
    cases e with
    | field f => cases hn
    | _ => rfl

lemma parsed_lit (l : Literal) : (lit l).Parsed :=
  parsed_iff.2 ⟨⟨.unnamed rfl rfl rfl rfl, rfl⟩, List.forall_mem_nil _⟩

lemma parsed_field {f : FieldPath} (h : f.path.isFieldName = true) (ht : f.type = none) :
    (field f).Parsed :=
  parsed_iff.2 ⟨⟨⟨⟨rfl, rfl, List.forall_mem_singleton.2 h, by simp [table?]⟩, ht⟩, rfl⟩,
    List.forall_mem_nil _⟩

lemma parsed_present {f : FieldPath} (h : f.path.isFieldName = true) (expected : Bool) :
    (present f expected).Parsed :=
  parsed_iff.2 ⟨⟨⟨⟨rfl, rfl, List.forall_mem_singleton.2 h, by simp [table?]⟩, rfl⟩, rfl⟩,
    List.forall_mem_nil _⟩

/-! ## Building -/

open Result

variable {e : Expr} {es : List Expr}

lemma ensures_ofField (text : String) : Ensures (ofField text) Parsed :=
  ensures_bind (ensures_fieldOfString text) fun _ h => ensures_pure (parsed_field h.1 h.2)

lemma ensures_ofVariable (reference : String) : Ensures (ofVariable reference) Parsed := by
  unfold ofVariable
  split
  · exact ensures_error rfl
  · rename_i body _
    split
    · rename_i name segment rest hsegments
      dsimp only
      have hspelled : Path.Spelled ⟨segment :: rest⟩ :=
        Path.spelled_of_suffix (List.cons_ne_nil _ _) (hsegments ▸ List.suffix_cons name _)
      refine ensures_bind hspelled.ensures_check fun _ hpath => ?_
      refine ensures_bind (ensures_checkFieldName _) fun _ hname => ensures_pure ?_
      refine parsed_iff.2 ⟨⟨⟨⟨rfl, rfl, ?_, by simp [table?]⟩, rfl⟩, rfl⟩, List.forall_mem_nil _⟩
      exact List.forall_mem_cons.2 ⟨hname, List.forall_mem_singleton.2 hpath⟩
    · refine ensures_bind (ensures_checkFieldName _) fun _ hname => ensures_pure ?_
      refine parsed_iff.2 ⟨⟨⟨⟨rfl, rfl, ?_, by simp [table?]⟩, rfl⟩, rfl⟩, List.forall_mem_nil _⟩
      exact List.forall_mem_singleton.2 hname

lemma ensures_ofCompare (op : Comparison) {left right : Expr} (hl : left.Parsed)
    (hr : right.Parsed) : Ensures (ofCompare op left right) Parsed := by
  have hnode : (compare op left right).Parsed :=
    parsed_iff.2 ⟨⟨.unnamed rfl rfl rfl rfl, rfl⟩,
      List.forall_mem_cons.2 ⟨hl, List.forall_mem_singleton.2 hr⟩⟩
  unfold ofCompare
  split
  · split
    · exact ensures_pure hnode
    · exact ensures_error rfl
    · exact ensures_error rfl
  · exact ensures_pure hnode

/-- A node that passes the check of its shape, is complete and names nothing. -/
lemma ensures_checked (hc : e.isComplete = true) (hn : e.fieldNames = []) (ht : e.table? = none)
    (ha : e.isAccumulator = false) (h : ∀ part ∈ e.parts, part.Parsed) :
    Ensures (checked e) Parsed := by
  refine ensures_bind ensures_self fun _ hshape => ensures_pure (parsed_iff.2 ⟨⟨?_, ha⟩, h⟩)
  exact .unnamed hshape hc hn ht

lemma ensures_ofLogic (op : Connective) (h : ∀ e ∈ es, e.Parsed) :
    Ensures (ofLogic op es) Parsed :=
  ensures_checked rfl rfl rfl rfl h

lemma ensures_ofArith (op : Arithmetic) (h : ∀ e ∈ es, e.Parsed) :
    Ensures (ofArith op es) Parsed :=
  ensures_checked rfl rfl rfl rfl h

lemma ensures_ofText (op : TextOp) (h : ∀ e ∈ es, e.Parsed) :
    Ensures (ofText op es) Parsed :=
  ensures_checked rfl rfl rfl rfl h

lemma ensures_ofObject (op : ObjectOp) (h : ∀ e ∈ es, e.Parsed) :
    Ensures (ofObject op es) Parsed :=
  ensures_checked rfl rfl rfl rfl h

lemma ensures_ofIfNull (h : ∀ e ∈ es, e.Parsed) : Ensures (ofIfNull es) Parsed :=
  ensures_checked rfl rfl rfl rfl h

lemma ensures_ofSwitch {branches : List (Expr × Expr)} {default : Option Expr}
    (hb : ∀ b ∈ branches, b.1.Parsed ∧ b.2.Parsed) (hd : ∀ e ∈ default, e.Parsed) :
    Ensures (ofSwitch branches default) Parsed := by
  refine ensures_checked rfl rfl rfl rfl (List.forall_mem_append.2 ⟨?_, ?_⟩)
  · refine List.forall_mem_flatMap.2 fun b hmem => ?_
    exact List.forall_mem_cons.2 ⟨(hb b hmem).1, List.forall_mem_singleton.2 (hb b hmem).2⟩
  · exact fun e he => hd e (Option.mem_toList.1 he)

lemma parsed_cond {test yes no : Expr} (ht : test.Parsed) (hy : yes.Parsed)
    (hn : no.Parsed) : (cond test yes no).Parsed :=
  parsed_iff.2 ⟨⟨.unnamed rfl rfl rfl rfl, rfl⟩,
    List.forall_mem_cons.2 ⟨ht, List.forall_mem_cons.2 ⟨hy, List.forall_mem_singleton.2 hn⟩⟩⟩

lemma parsed_date (part : DatePart) (h : e.Parsed) : (date part e).Parsed :=
  parsed_iff.2 ⟨⟨.unnamed rfl rfl rfl rfl, rfl⟩, List.forall_mem_singleton.2 h⟩

/-- A document or a group key, of admissible names. -/
lemma parsed_fields {fields : List (String × Expr)}
    (hn : ∀ f ∈ fields, (Path.ofString f.1).isFieldName = true)
    (h : ∀ f ∈ fields, f.2.Parsed) :
    (document fields).Parsed ∧ (compoundId fields).Parsed := by
  have hnames : ∀ p ∈ fields.map fun f => Path.ofString f.1, p.isFieldName = true :=
    List.forall_mem_map.2 hn
  have hparts : ∀ part ∈ fields.map Prod.snd, part.Parsed := List.forall_mem_map.2 h
  exact ⟨parsed_iff.2 ⟨⟨⟨⟨rfl, rfl, hnames, by simp [table?]⟩, rfl⟩, rfl⟩, hparts⟩,
    parsed_iff.2 ⟨⟨⟨⟨rfl, rfl, hnames, by simp [table?]⟩, rfl⟩, rfl⟩, hparts⟩⟩

lemma ensures_ofCompoundId {fields : List (String × Expr)} (h : ∀ f ∈ fields, f.2.Parsed) :
    Ensures (ofCompoundId fields) Parsed := by
  unfold ofCompoundId
  split
  · exact ensures_error rfl
  · refine ensures_bind (ensures_forM fun f _ => ensures_checkFieldName f.1) fun _ hn => ?_
    exact ensures_pure (parsed_fields hn h).2

lemma ensures_ofConversion (op : Conversion) (h : e.Parsed) :
    Ensures (ofConversion op e) Parsed := by
  unfold ofConversion
  split
  · exact ensures_error rfl
  · rename_i hop
    have hcomplete : (convert op e none none none).isComplete = true := by
      simpa [isComplete] using hop
    exact ensures_pure (parsed_iff.2 ⟨⟨.unnamed rfl hcomplete rfl rfl, rfl⟩,
      List.forall_mem_singleton.2 h⟩)

instance (name : String) : Ordinary (Conversion.ofTarget name) := by
  unfold Conversion.ofTarget
  split <;> first | infer_instance | exact ordinary_fault rfl

lemma ensures_ofConvert (target : String) {onError onNull : Option Expr} (h : e.Parsed)
    (he : ∀ a ∈ onError, a.Parsed) (hn : ∀ a ∈ onNull, a.Parsed) :
    Ensures (ofConvert e target onError onNull) Parsed := by
  refine ensures_then fun target => ensures_pure (parsed_iff.2 ⟨?_, ?_⟩)
  · exact ⟨.unnamed rfl rfl rfl rfl, rfl⟩
  refine List.forall_mem_cons.2 ⟨h, List.forall_mem_append.2 ⟨?_, ?_⟩⟩
  · exact fun a ha => he a (Option.mem_toList.1 ha)
  · exact fun a ha => hn a (Option.mem_toList.1 ha)

lemma ensures_ofAccumulate (op : Accumulator) {arg : Option Expr} (h : ∀ e ∈ arg, e.Parsed) :
    Ensures (ofAccumulate op arg) ParsedAccumulation := by
  unfold ofAccumulate
  split
  · exact ensures_error rfl
  · rename_i harg
    have hcomplete : (accumulate op arg).isComplete = true := by
      cases arg <;> simp_all [isComplete]
    exact ensures_pure (.mk (NodeParsed.unnamed rfl hcomplete rfl rfl).toNodeWellFormed h)

/-! ## Array operators -/

/-- Positional arguments within the bounds of an operator make a complete node of its shape. -/
lemma arrayLayout_parsed {op : ArrayOp}
    (hop : op ≠ .filter ∧ op ≠ .map ∧ op ≠ .reduce ∧ op ≠ .sort)
    (h : (arrayLayout op es).1.admits es.length = true) :
    NodeParsed (array op (arrayLayout op es).2.1 (arrayLayout op es).2.2.1
      (arrayLayout op es).2.2.2 none) := by
  obtain ⟨hfilter, hmap, hreduce, hsort⟩ := hop
  have hshape : op.arity.admits (arrayLayout op es).2.2.2.length = true := by
    cases op <;> first | contradiction | skip
    all_goals
      simp only [arrayLayout, Arity.admits_exactly, Arity.admits_atLeast, Arity.admits_between] at h
      simp only [arrayLayout, ArrayOp.arity, Arity.admits_exactly, Arity.admits_atLeast,
        Arity.admits_between, List.length_drop, List.length_take, List.length_nil]
    all_goals omega
  refine .unnamed ?_ ?_ rfl rfl
  · rw [checkShape, checkArity, if_pos hshape]
    rfl
  · cases op <;> first | contradiction | skip
    all_goals
      simp only [arrayLayout, Arity.admits_exactly, Arity.admits_atLeast, Arity.admits_between] at h
      simp [arrayLayout, isComplete, ArrayOp.takesInput, ArrayOp.takesIndex]
    all_goals omega

/-- The parts of an array operator are among its arguments. -/
lemma mem_of_mem_arrayLayout {op : ArrayOp} {part : Expr}
    (h : part ∈ (arrayLayout op es).2.1.toList ++ (arrayLayout op es).2.2.1.toList ++
      (arrayLayout op es).2.2.2) : part ∈ es := by
  have hget {i : Nat} (h : part ∈ es[i]?.toList) : part ∈ es :=
    List.mem_of_getElem? (Option.mem_toList.1 h)
  have htake {i : Nat} (h : part ∈ es.take i) : part ∈ es := List.mem_of_mem_take h
  have hdrop {i : Nat} (h : part ∈ es.drop i) : part ∈ es := List.mem_of_mem_drop h
  simp only [List.mem_append] at h
  unfold arrayLayout at h
  split at h <;> simp only [Option.toList_none, List.not_mem_nil, or_false, false_or] at h <;> tauto

lemma ensures_ofArray (op : ArrayOp) (h : ∀ e ∈ es, e.Parsed) :
    Ensures (ofArray op es) Parsed := by
  unfold ofArray
  split
  · exact ensures_error rfl
  · exact ensures_error rfl
  · exact ensures_error rfl
  · exact ensures_error rfl
  · rename_i hfilter hmap hreduce hsort
    refine ensures_bind (ensures_checkArity _ _ _) fun _ harity => ensures_pure ?_
    have hnode := arrayLayout_parsed ⟨hfilter, hmap, hreduce, hsort⟩ harity
    exact parsed_iff.2 ⟨⟨hnode, rfl⟩, fun part hpart => h part (mem_of_mem_arrayLayout hpart)⟩

/-- An operator with named arguments, which names the element. -/
lemma parsed_overElements {op : ArrayOp} {input : Expr} {index : Option Expr}
    {element : Option String} (hop : op.takesIndex = false) (hshape : op.arity = .exactly es.length)
    (hinput : input.Parsed) (hindex : ∀ e ∈ index, e.Parsed) (hes : ∀ e ∈ es, e.Parsed)
    (helement : ∀ name ∈ element, (Path.ofString name).isFieldName = true) :
    (array op (some input) index es element).Parsed := by
  have hadmits : op.arity.admits es.length = true := by
    rw [hshape, Arity.admits_exactly]
  refine parsed_iff.2 ⟨⟨⟨⟨?_, ?_, ?_, by simp [table?]⟩, rfl⟩, rfl⟩, ?_⟩
  · rw [checkShape, checkArity, if_pos hadmits]
    rfl
  · simp [isComplete, hop]
  · simpa [fieldNames] using helement
  · refine List.forall_mem_append.2 ⟨List.forall_mem_cons.2 ⟨hinput, ?_⟩, hes⟩
    exact fun e he => hindex e (Option.mem_toList.1 he)

lemma ensures_elementVar (name : Option String) :
    Ensures (elementVar name) fun name => (Path.ofString name).isFieldName = true :=
  ensures_bind (ensures_checkFieldName _) fun _ h => ensures_pure h

lemma ensures_ofFilter {input test : Expr} {limit : Option Expr} (name : Option String)
    (hi : input.Parsed) (ht : test.Parsed) (hl : ∀ e ∈ limit, e.Parsed) :
    Ensures (ofFilter input name test limit) Parsed := by
  refine ensures_bind (ensures_elementVar name) fun name hname => ensures_pure ?_
  have hargs := List.forall_mem_singleton.2 ht
  exact parsed_overElements rfl rfl hi hl hargs (by simpa using hname)

lemma ensures_ofMap {input body : Expr} (name : Option String) (hi : input.Parsed)
    (hb : body.Parsed) : Ensures (ofMap input name body) Parsed := by
  refine ensures_bind (ensures_elementVar name) fun name hname => ensures_pure ?_
  exact parsed_overElements rfl rfl hi (by simp) (List.forall_mem_singleton.2 hb)
    (by simpa using hname)

lemma parsed_ofReduce {input initial body : Expr} (hi : input.Parsed)
    (hinitial : initial.Parsed) (hb : body.Parsed) :
    (ofReduce input initial body).Parsed :=
  parsed_overElements rfl rfl hi (by simp)
    (List.forall_mem_cons.2 ⟨hinitial, List.forall_mem_singleton.2 hb⟩) (by decide)

lemma parsed_ofSortArray {input sortBy : Expr} (hi : input.Parsed)
    (hs : sortBy.Parsed) : (ofSortArray input sortBy).Parsed :=
  parsed_overElements rfl rfl hi (by simp) (List.forall_mem_singleton.2 hs) (by simp)

end Expr

end PipelineSql
