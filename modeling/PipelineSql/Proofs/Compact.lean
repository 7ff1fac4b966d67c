import PipelineSql.Render
import PipelineSql.Proofs.Conjuncts
import PipelineSql.Proofs.Yields

/-!
# Texts of one piece

Nearly every operator writes a function call, a subquery, a choice by cases or brackets. Such a text
is one piece: nothing that it is put next to can take it apart. The operators that do not are left to
where it matters what they leave outside all brackets.
-/

namespace PipelineSql

/-- Is the token a name, a constant or a placeholder? -/
def Token.isSolid : Token → Bool
  | .text _ | .newline | .indent _ => false
  | _ => true

/-- Is the text a word that is no joint? -/
def isPlainWord (s : String) : Bool :=
  !s.toList.isEmpty && s.toList.all isWordChar && (Joint.ofWord? s.toList).isNone

namespace Fragment

/-- A name or a constant, a bracket, a choice by cases, or a function call. -/
inductive Compact : Fragment → Prop where
  | token {t} : t.isSolid = true → Compact [.token t]
  | round {body} : Compact [.group .round body]
  | cases {body} : Compact [.group .cases body]
  | call {name body} : isPlainWord name = true → Compact (text name ++ [.group .round body])

lemma compact_call {name : String} {args : List Fragment} (h : isPlainWord name = true) :
    (Fragment.call name args).Compact :=
  .call h

lemma compact_column {source name : String} : (column source name).Compact :=
  .token rfl

lemma compact_literal {l : Literal} : (ofToken (Token.literal l)).Compact := by
  cases l with
  | null | bool _ | int _ | double _ | string _ | array _ => exact .token rfl

end Fragment

open Fragment

/-! ## Elements -/

lemma compact_jsonQuery {doc : Fragment} {path : String} {wrapper : Bool} :
    (jsonQuery doc path wrapper).Compact :=
  .call rfl

lemma compact_jsonValue {d : Dialect} {doc : Fragment} {path : String} {type : Option JsonType} :
    (jsonValue d doc path type).Compact := by
  unfold jsonValue
  split
  · exact compact_jsonQuery
  · exact .call rfl
  · exact .call rfl
  · exact .call rfl

lemma compact_overElements {d : Dialect} {a : ArraySource} {label : String}
    {selected rest : Fragment} : (overElements d a label selected rest).Compact :=
  .round

lemma compact_elementValue {d : Dialect} {source : String} {path : Option Path}
    {type : Option JsonType} : (elementValue d source path type).Compact := by
  unfold elementValue
  repeat' split
  · exact compact_jsonValue
  · exact compact_column
  · exact compact_column
  · exact compact_column

/-- An extreme of mixed values is a call, whatever window follows the aggregates in it. -/
lemma compact_mixedExtreme {number text window : Fragment} {greatest : Bool} :
    (mixedExtreme number text greatest window).Compact := by
  unfold mixedExtreme
  split
  · exact .call rfl
  · exact .call rfl

/-- The object of named values is a call. -/
lemma compact_object {entries : List Entry} : (Entry.object entries).Compact := by
  unfold Entry.object
  rw [Member.fragment]
  exact .call rfl

namespace Render

variable {env : Env}

lemma compact_extracted {part : String} {t : Fragment} : (extracted part t).Compact :=
  .call rfl

lemma isPlainWord_function {op : Arithmetic} (h : op.sign? = none) :
    isPlainWord op.function = true := by
  cases op with
  | add | subtract | multiply | divide => cases h
  | _ => rfl

lemma yields_compact_call {name : String} {args : List Fragment} (h : isPlainWord name = true) :
    (pure (call name args) : Render Fragment).Yields env Compact :=
  yields_pure (.call h)

lemma yields_compact_literal {l : Literal} : (literal l).Yields env Compact := by
  have hslot : (slot l).Yields env Compact := by
    intro e f e' h
    cases h
    exact .token rfl
  unfold literal
  split
  · exact yields_pure (.token rfl)
  · exact yields_pure (.token rfl)
  · exact yields_read (yields_ite (fun _ => yields_pure compact_literal) fun _ => hslot)

lemma yields_compact_numberAggregate {function : String} {array : Reading} :
    (numberAggregate function array).Yields env Compact :=
  yields_then fun _ => yields_then fun _ => yields_then fun _ => yields_pure compact_overElements

lemma yields_compact_elementExtreme {greatest : Bool} {array : Reading} :
    (elementExtreme greatest array).Yields env Compact :=
  yields_then fun _ => yields_then fun _ => yields_then fun _ => yields_then fun _ =>
    yields_pure compact_overElements

/-- Arithmetic is a call or stands in brackets. -/
lemma yields_compact_arithmetic {op : Arithmetic} {operands : List Reading} :
    (arithmetic op operands).Yields env Compact := by
  unfold arithmetic
  split
  · exact yields_then fun _ => yields_pure .round
  · exact yields_fault _
  · next first rest hsign =>
    refine yields_ite (fun _ => yields_compact_elementExtreme) fun _ => ?_
    refine yields_ite (fun _ => yields_then fun _ => yields_compact_call rfl) fun _ => ?_
    refine yields_warn_if (yields_warn_if (yields_then fun _ => ?_))
    exact yields_compact_call (isPlainWord_function hsign)

/-! ## Text -/

lemma yields_compact_substring {s start : Reading} {length : Option Reading} :
    (substring s start length).Yields env Compact := by
  refine yields_then fun t => yields_then fun i => ?_
  split
  · exact yields_compact_call rfl
  · refine yields_ite (fun _ => yields_compact_call rfl) fun _ => ?_
    exact yields_then fun _ => yields_compact_call rfl

lemma yields_compact_trimmed {op : TextOp} {s : Reading} {chars : Option Reading} :
    (trimmed op s chars).Yields env Compact := by
  have hname : isPlainWord (if op = .ltrim then "LTRIM" else "RTRIM") = true := by
    split
    · rfl
    · rfl
  refine yields_then fun t => ?_
  split
  · exact yields_compact_call rfl
  · exact yields_then fun _ => yields_compact_call rfl
  · cases chars with
    | none => exact yields_compact_call hname
    | some c => exact yields_then fun _ => yields_compact_call hname

lemma yields_compact_pieces {s separator : Reading} : (pieces s separator).Yields env Compact :=
  yields_then fun _ => yields_then fun _ => yields_then fun _ => yields_compact_call rfl

lemma yields_compact_regexMatch {s pattern : Reading} {options : Option Reading} :
    (regexMatch s pattern options).Yields env Compact :=
  yields_then fun _ => yields_then fun _ => yields_then fun _ => yields_then fun _ =>
    yields_pure .cases

lemma yields_compact_replacedOnce {s find replacement : Reading} :
    (replacedOnce s find replacement).Yields env Compact :=
  yields_then fun _ => yields_then fun _ => yields_then fun _ => yields_pure .cases

/-- All operations on text but concatenation and the position of a text. -/
lemma yields_compact_text {op : TextOp} {args : List Reading} (hconcat : op ≠ .concat)
    (hindex : op ≠ .indexOf) : (Render.text op args).Yields env Compact := by
  unfold Render.text
  split
  · exact absurd rfl hconcat
  · exact yields_then fun _ => yields_compact_call rfl
  · exact yields_then fun _ => yields_compact_call rfl
  · exact yields_compact_substring
  · exact yields_compact_trimmed
  · exact yields_compact_trimmed
  · exact yields_compact_trimmed
  · exact yields_then fun _ => yields_compact_call rfl
  · exact yields_compact_pieces
  · exact absurd rfl hindex
  · exact yields_compact_regexMatch
  · exact yields_compact_replacedOnce
  · exact yields_then fun _ => yields_then fun _ => yields_then fun _ => yields_compact_call rfl
  · exact yields_fault _

/-! ## Conversions and documents -/

/-- Every conversion is a call or a choice, but to an object id, which leaves the value alone. -/
lemma compact_cast {d : Dialect} {target : Conversion} {f g : Fragment}
    (h : cast d target f = .ok g) : if target = .toObjectId then g = f else g.Compact := by
  cases target with
  | toObjectId => cases h; rfl
  | toBool => cases h; exact .cases
  | type | convert | isNumber => cases h
  | _ => cases h; exact .call rfl

lemma yields_compact_typeName {arg : Reading} : (typeName arg).Yields env Compact := by
  unfold typeName
  split
  · exact yields_compact_literal
  · refine yields_ite (fun _ => yields_compact_literal) fun _ => ?_
    refine yields_then fun _ => yields_read ?_
    split
    · exact yields_compact_call rfl
    · exact yields_then fun _ => yields_pure .cases

lemma yields_compact_document {fields : List (String × Reading)} :
    (document fields).Yields env Compact :=
  yields_then fun _ => yields_compact_call rfl

lemma yields_compact_documentOfPairs {array : Reading} :
    (documentOfPairs array).Yields env Compact :=
  yields_then fun _ => yields_then fun _ => yields_then fun _ => yields_pure .round

lemma yields_compact_lookupSize {source : String} {value : Fragment} {foreignField : Path} :
    (lookupSize source value foreignField).Yields env Compact :=
  yields_then fun _ => yields_then fun _ => yields_pure .round

/-! ## Arrays -/

lemma yields_compact_endElement {array : Reading} {step : String} {type : Option JsonType} :
    (endElement array step type).Yields env Compact :=
  yields_then fun _ => yields_then fun _ => yields_pure compact_jsonValue

lemma yields_compact_elementAt {array index : Reading} {type : Option JsonType} :
    (elementAt array index type).Yields env Compact := by
  refine yields_then fun a => yields_then fun env' => ?_
  dsimp only
  split
  · exact yields_pure compact_jsonValue
  · exact yields_then fun _ => yields_then fun _ => yields_pure compact_overElements

lemma yields_compact_arraySize {array : Reading} : (arraySize array).Yields env Compact := by
  refine yields_then fun env' => ?_
  dsimp only
  split
  · exact yields_compact_lookupSize
  · exact yields_then fun _ => yields_pure compact_jsonValue

lemma yields_compact_slice {array count : Reading} {skip : Option Reading} :
    (slice array skip count).Yields env Compact := by
  refine yields_then fun a => ?_
  split
  · split
    · exact yields_pure compact_jsonQuery
    · exact yields_compact_call rfl
  · exact yields_then fun _ => yields_then fun _ => yields_then fun _ => yields_then fun _ =>
      yields_pure compact_overElements

lemma yields_compact_concatenatedArrays {args : List Reading} :
    (concatenatedArrays args).Yields env Compact :=
  yields_then fun _ => yields_then fun _ => yields_pure .round

lemma yields_compact_setUnion {args : List Reading} : (setUnion args).Yields env Compact :=
  yields_then fun _ => yields_then fun _ => yields_then fun _ => yields_then fun _ =>
    yields_pure .round

lemma yields_compact_setFilter {op : ArrayOp} {first : Reading} {others : List Reading}
    {kept : Bool} : (setFilter op first others kept).Yields env Compact :=
  yields_then fun _ => yields_then fun _ => yields_then fun _ => yields_then fun _ =>
    yields_then fun _ => yields_then fun _ => yields_pure .round

lemma yields_compact_elementPosition {array value : Reading} {start stop : Option Reading} :
    (elementPosition array value start stop).Yields env Compact :=
  yields_then fun _ => yields_then fun _ => yields_then fun _ => yields_then fun _ =>
    yields_then fun _ => yields_then fun _ => yields_pure compact_overElements

lemma yields_compact_reversed {array : Reading} : (reversed array).Yields env Compact :=
  yields_then fun _ => yields_then fun _ => yields_then fun _ => yields_pure compact_overElements

lemma yields_compact_sortedArray {array : Reading} {order : Expr} :
    (sortedArray array order).Yields env Compact :=
  yields_then fun _ => yields_then fun _ => yields_then fun _ => yields_then fun _ =>
    yields_pure compact_overElements

lemma yields_compact_filtered {array test : Reading} {var : String} {limit : Option Reading} :
    (filtered array var test limit).Yields env Compact := by
  refine yields_then fun a => yields_then fun label => yields_then fun c => yields_then fun n =>
    yields_then fun env' => ?_
  dsimp only
  split
  · exact yields_pure compact_overElements
  · exact yields_then fun _ => yields_pure .round

lemma yields_compact_mapped {array body : Reading} {var : String} :
    (mapped array var body).Yields env Compact :=
  yields_then fun _ => yields_then fun _ => yields_then fun _ => yields_then fun _ =>
    yields_pure compact_overElements

lemma yields_compact_reduced {array initial body : Reading} :
    (reduced array initial body).Yields env Compact := by
  refine yields_then fun a => yields_then fun label => yields_then fun parts =>
    yields_then fun env' => ?_
  dsimp only
  split
  · exact yields_then fun _ => yields_then fun _ => yields_pure compact_overElements
  · exact yields_then fun _ => yields_then fun _ => yields_pure compact_overElements

lemma yields_compact_arrayValue {op : ArrayOp} {input index : Option Reading}
    {args : List Reading} {var : Option String} {type : Option JsonType} :
    (arrayValue op input index args var type).Yields env Compact := by
  unfold arrayValue
  split
  · split
    · exact yields_fault _
    · exact yields_then fun _ => yields_compact_elementAt
  · exact yields_then fun _ => yields_compact_endElement
  · exact yields_then fun _ => yields_compact_endElement
  · exact yields_then fun _ => yields_compact_arraySize
  · refine yields_then fun array => ?_
    split
    · exact yields_fault _
    · exact yields_compact_slice
    · exact yields_compact_slice
  · exact yields_compact_concatenatedArrays
  · exact yields_compact_setUnion
  · exact yields_compact_setFilter
  · exact yields_compact_setFilter
  · exact yields_then fun _ => yields_compact_elementPosition
  · exact yields_then fun _ => yields_compact_reversed
  · exact yields_then fun _ => yields_compact_sortedArray
  · exact yields_then fun _ => yields_compact_filtered
  · exact yields_then fun _ => yields_compact_mapped
  · exact yields_then fun _ => yields_compact_reduced
  · exact yields_fault _

/-- Over an array every accumulator writes one piece. -/
lemma yields_compact_overArray {op : Accumulator} {arg : Option Reading} :
    (overArray op arg).Yields env Compact := by
  unfold overArray
  cases op with
  | sum => exact yields_then fun _ => yields_then fun _ => yields_compact_call rfl
  | avg | stdDevPop | stdDevSamp => exact yields_then fun _ => yields_compact_numberAggregate
  | min | max => exact yields_then fun _ => yields_compact_elementExtreme
  | first | last => exact yields_then fun _ => yields_compact_endElement
  | count | push | addToSet => exact yields_unsupported _

end Render

end PipelineSql
