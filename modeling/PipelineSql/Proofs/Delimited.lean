import PipelineSql.Proofs.Compact
import PipelineSql.Proofs.Precedence

/-!
# Which operators keep together

A text of one piece keeps together as an operand, and nearly every operator writes one. The
exceptions leave an operator outside all brackets: the position of a text, the day of the week, a
concatenation of constants, and in a group the sum of a constant and the set of values.
-/

namespace PipelineSql

open Fragment

/-- The characters of words are no operators. -/
lemma signs_ofChars_word {cs : List Char} (h : ∀ c ∈ cs, isWordChar c = true) :
    (Atom.ofChars false 0 cs).filterMap Atom.sign? = [] := by
  induction cs with
  | nil => rfl
  | cons c cs ih =>
    obtain ⟨hc, hcs⟩ := List.forall_mem_cons.1 h
    have hne (x : Char) (hx : isWordChar x = false) : c ≠ x := by
      rintro rfl
      rw [hx] at hc
      cases hc
    have hsign : Sign.ofChar? c = none := by
      unfold Sign.ofChar?
      split
      · exact absurd rfl (hne '+' rfl)
      · exact absurd rfl (hne '-' rfl)
      · exact absurd rfl (hne '*' rfl)
      · exact absurd rfl (hne '/' rfl)
      · rfl
    have hstep : Atom.ofChars false 0 (c :: cs) = .char c :: Atom.ofChars false 0 cs := by
      conv_lhs => unfold Atom.ofChars
      split
      · contradiction
      · contradiction
      · next heq => exact absurd (List.cons.inj heq).1 (hne '|' rfl)
      · next heq _ =>
        obtain ⟨rfl, rfl⟩ := List.cons.inj heq
        rw [if_neg (hne '\'' rfl), if_neg (hne '(' rfl), if_neg (hne ')' rfl), if_neg (hne ' ' rfl),
          hsign]
    rw [hstep]
    exact ih hcs

lemma delimited_text_of_isPlainWord {name : String} (h : isPlainWord name = true) :
    (text name).Delimited := by
  rw [isPlainWord, Bool.and_eq_true_iff, Bool.and_eq_true_iff, List.all_eq_true] at h
  have hsigns := signs_ofChars_word h.1.2
  rwa [Delimited, signs, atoms, text, List.flatMap_singleton]

/-- What is one piece keeps together. -/
lemma Fragment.Compact.delimited {f : Fragment} (h : f.Compact) : f.Delimited := by
  cases h with
  | @token t ht =>
    cases t with
    | text | newline | indent => cases ht
    | _ => rfl
  | round => exact delimited_group
  | cases => exact delimited_group
  | call hname => exact delimited_append.2 ⟨delimited_text_of_isPlainWord hname, delimited_group⟩

@[simp]
lemma delimited_jsonQuery {doc : Fragment} {path : String} {wrapper : Bool} :
    (jsonQuery doc path wrapper).Delimited :=
  compact_jsonQuery.delimited

@[simp]
lemma delimited_jsonValue {d : Dialect} {doc : Fragment} {path : String} {type : Option JsonType} :
    (jsonValue d doc path type).Delimited :=
  compact_jsonValue.delimited

@[simp]
lemma delimited_elementValue {d : Dialect} {source : String} {path : Option Path}
    {type : Option JsonType} : (elementValue d source path type).Delimited :=
  compact_elementValue.delimited

/-- A concatenation of two texts or more has an operator outside all brackets. -/
lemma not_delimited_joined {separator : String} {f g : Fragment} {fs : List Fragment}
    (h : ¬(text separator).Delimited) : ¬(joined separator (f :: g :: fs)).Delimited := by
  rw [joined, delimited_append, delimited_append]
  exact fun hd => h hd.1.2

/-- The row as one document is a call unless it is a computed document with nothing pending. -/
lemma delimited_object {entries : List Entry} : (Entry.object entries).Delimited :=
  compact_object.delimited

namespace Render

variable {env : Env}

/-- What yields one piece yields a text that keeps together. -/
lemma Yields.delimited {r : Render Fragment} (h : r.Yields env Compact) : r.Yields env Delimited :=
  h.imp fun _ => Compact.delimited

/-- A call keeps together if the name of the function does. -/
lemma yields_call {name : String} {args : List Fragment} (h : (Fragment.text name).Delimited) :
    (pure (call name args) : Render Fragment).Yields env Delimited :=
  yields_pure (delimited_call h)

lemma delimited_literal {l : Literal} : (ofToken (Token.literal l)).Delimited :=
  compact_literal.delimited

lemma yields_literal {l : Literal} : (literal l).Yields env Delimited :=
  yields_compact_literal.delimited

/-! ## Arithmetic and dates -/

/-- Arithmetic is a call or stands in brackets. -/
lemma yields_arithmetic {op : Arithmetic} {operands : List Reading} :
    (arithmetic op operands).Yields env Delimited :=
  yields_compact_arithmetic.delimited

/-- Every part of a date keeps together but the day of the week. -/
lemma yields_datePart {part : DatePart} {arg : Reading} :
    (datePart part arg).Yields env fun f => f.Delimited ↔ part ≠ .dayOfWeek := by
  unfold datePart
  refine yields_then fun t => ?_
  cases part with
  | dayOfWeek =>
    refine yields_pure (iff_of_false ?_ (by simp))
    rw [delimited_append]
    exact fun h => absurd h.2 (by decide)
  | second | millisecond | dayOfYear =>
    exact yields_pure (iff_of_true (delimited_call (by decide)) (by simp))
  | _ => exact yields_pure (iff_of_true compact_extracted.delimited (by simp))

/-! ## Text -/

/-- A concatenation keeps together unless it joins two constants or more and nothing else. -/
lemma yields_concatenation {args : List Reading}
    (h : ∀ r ∈ args, r.expr.literal?.isSome → r.scalar.Yields env Delimited) :
    (concatenation args).Yields env fun f =>
      f.Delimited ↔ ¬(2 ≤ args.length ∧ ∀ r ∈ args, r.expr.literal?.isSome) := by
  unfold concatenation
  refine yields_bind (yields_mapM (R := fun r f => r.expr.literal?.isSome → f.Delimited)
    fun r hr => ?_) fun parts hparts => ?_
  · cases hl : r.expr.literal?.isSome with
    | false => exact fun _ _ _ _ hs => nomatch hs
    | true => exact (h r hr hl).imp fun _ hf _ => hf
  dsimp only
  have hlength := hparts.length_eq
  split
  · next hnone =>
    -- with nothing that may be null the joined parts stand alone
    have hconstant : ∀ r ∈ args, r.expr.literal?.isSome := by
      intro r hr
      obtain ⟨i, hi, rfl⟩ := List.mem_iff_getElem.1 hr
      rw [List.isEmpty_iff, List.filter_eq_nil_iff] at hnone
      have hmem : (args[i], parts[i]) ∈ args.zip parts := by
        rw [← List.getElem_zip (h := by simp [← hlength, hi])]
        exact List.getElem_mem _
      simpa [Option.isSome_iff_ne_none] using hnone _ hmem
    refine yields_pure ?_
    cases hparts with
    | nil => simp [joined]
    | cons hf hrest =>
      cases hrest with
      | nil => simpa [joined] using hf (hconstant _ List.mem_cons_self)
      | cons _ _ =>
        refine iff_of_false (not_delimited_joined (by decide)) ?_
        exact not_not_intro ⟨by simp, hconstant⟩
  · next hsome =>
    refine yields_pure (iff_of_true delimited_cases ?_)
    rintro ⟨-, hconstant⟩
    refine hsome (List.isEmpty_iff.2 (List.filter_eq_nil_iff.2 ?_))
    rintro ⟨r, f⟩ hmem
    simpa [Option.isSome_iff_ne_none] using hconstant r (List.of_mem_zip hmem).1

/-- The position of a text is a difference without brackets. -/
lemma yields_textPosition {s part : Reading} {start stop : Option Reading} :
    (textPosition s part start stop).Yields env fun f => ¬f.Delimited := by
  have hopen (f : Fragment) : ¬(f ++ Fragment.text " - 1").Delimited := by
    rw [delimited_append]
    exact fun h => absurd h.2 (by decide)
  refine yields_then fun t => yields_then fun p => ?_
  split
  · exact yields_pure (hopen _)
  · exact yields_then fun _ => yields_pure (hopen _)

lemma yields_text_indexOf {args : List Reading} :
    (Render.text .indexOf args).Yields env fun f => ¬f.Delimited := by
  match args with
  | [] | [_] => exact yields_fault _
  | t :: part :: rest => exact yields_textPosition

/-- The other operations on text keep together. -/
lemma yields_text {op : TextOp} {args : List Reading} (hconcat : op ≠ .concat)
    (hindex : op ≠ .indexOf) : (Render.text op args).Yields env Delimited :=
  (yields_compact_text hconcat hindex).delimited

/-! ## Conversions -/

/-- Every conversion is a call or a choice, but to an object id, which leaves the value alone. -/
lemma delimited_cast {d : Dialect} {target : Conversion} {f g : Fragment}
    (h : cast d target f = .ok g) : if target = .toObjectId then g = f else g.Delimited := by
  have hcast := compact_cast h
  by_cases htarget : target = .toObjectId
  · rw [if_pos htarget] at hcast ⊢
    exact hcast
  · rw [if_neg htarget] at hcast ⊢
    exact hcast.delimited

lemma yields_converted {arg : Reading} {target : Option Conversion}
    {onError onNull : Option Reading} (P : Prop)
    (h : arg.scalar.Yields env fun f => f.Delimited ↔ P) :
    (converted arg target onError onNull).Yields env fun f =>
      f.Delimited ↔ (target = some .toObjectId → onError = none → onNull = none → P) := by
  unfold converted
  cases target with
  | none => exact yields_fault _
  | some target =>
    refine yields_bind h fun f hf => yields_read ?_
    refine yields_bind (yields_lift fun g hg => delimited_cast hg) fun g hg => ?_
    refine yields_ite (fun hplain => yields_pure ?_) fun hbranch => ?_
    · obtain ⟨hError, hNull⟩ := Bool.and_eq_true_iff.1 hplain
      rw [Option.isNone_iff_eq_none] at hError hNull
      subst hError hNull
      split at hg
      · next htarget =>
        subst hg htarget
        simpa using hf
      · next htarget => exact iff_of_true hg fun h => absurd (Option.some.inj h) htarget
    · have hcases {branches : List (Fragment × Fragment)} :
          (Fragment.cases branches (some g)).Delimited ↔
            (some target = some .toObjectId → onError = none → onNull = none → P) := by
        refine iff_of_true delimited_cases ?_
        rintro - rfl rfl
        exact absurd rfl hbranch
      refine yields_then fun _ => ?_
      dsimp only
      split
      · exact yields_then fun _ => yields_pure hcases
      · exact yields_then fun _ => yields_pure hcases

lemma yields_typeName {arg : Reading} : (typeName arg).Yields env Delimited :=
  yields_compact_typeName.delimited

/-! ## Documents -/

lemma yields_document {fields : List (String × Reading)} :
    (document fields).Yields env Delimited :=
  yields_compact_document.delimited

/-- Two documents or more are merged by calls. -/
lemma delimited_merges {first : Fragment} {rest : List (Fragment × Bool)} :
    (rest.foldl (fun acc (next, _) => call "JSON_MERGEPATCH" [acc, next]) first).Delimited ↔
      (rest = [] → first.Delimited) := by
  induction rest generalizing first with
  | nil => simp
  | cons next rest ih =>
    rw [List.foldl_cons, ih]
    exact iff_of_true (fun _ => delimited_call (by decide)) (by simp)

/-- A merge keeps together unless it has one operand, which it leaves alone. -/
lemma yields_mergedDocuments {args : List Reading} (P : Prop)
    (h : ∀ r, args = [r] → r.json.Yields env fun x => x.1.Delimited ↔ P) :
    (mergedDocuments args).Yields env fun f => f.Delimited ↔ (args.length = 1 → P) := by
  unfold mergedDocuments
  refine yields_bind (yields_mapM (R := fun r x => args = [r] → (x.1.Delimited ↔ P))
    fun r _ => ?_) fun parts hparts => ?_
  · by_cases hr : args = [r]
    · exact (h r hr).imp fun _ hx _ => hx
    · exact fun _ _ _ _ hr' => absurd hr' hr
  cases hparts with
  | nil => exact yields_fault _
  | cons hx hrest =>
    refine yields_pure (delimited_merges.trans ?_)
    cases hrest with
    | nil => simpa using hx rfl
    | cons _ _ => simp

lemma yields_documentOfPairs {array : Reading} :
    (documentOfPairs array).Yields env Delimited :=
  yields_compact_documentOfPairs.delimited

lemma yields_lookupSize {source : String} {value : Fragment} {foreignField : Path} :
    (lookupSize source value foreignField).Yields env Delimited :=
  yields_compact_lookupSize.delimited

/-! ## Arrays and accumulators -/

lemma yields_arrayValue {op : ArrayOp} {input index : Option Reading} {args : List Reading}
    {var : Option String} {type : Option JsonType} :
    (arrayValue op input index args var type).Yields env Delimited :=
  yields_compact_arrayValue.delimited

/-- Over an array every accumulator keeps together. -/
lemma yields_overArray {op : Accumulator} {arg : Option Reading} :
    (overArray op arg).Yields env Delimited :=
  yields_compact_overArray.delimited

/-- A sum over a group keeps together unless it adds a constant number other than one. -/
lemma yields_summed {arg : Reading} :
    (summed arg).Yields env fun f => f.Delimited ↔
      ¬∃ l, arg.expr.literal? = some l ∧ l.isNumeric = true ∧ l ≠ .int 1 := by
  unfold summed
  split
  · next h => exact yields_pure (iff_of_true (by decide) (by simp [h]))
  · next l hone h =>
    refine yields_ite (fun hl => ?_) fun hl => ?_
    · refine yields_then fun f => yields_pure (iff_of_false ?_ (not_not_intro ⟨l, h, hl, ?_⟩))
      · rw [delimited_append]
        exact fun hd => absurd hd.1 (by decide)
      · rintro rfl
        exact hone rfl
    · refine yields_then fun f => yields_pure (iff_of_true (delimited_call (by decide)) ?_)
      rintro ⟨l', h', hl', -⟩
      rw [h] at h'
      cases h'
      exact hl hl'
  · next h =>
    refine yields_then fun f => yields_pure (iff_of_true (delimited_call (by decide)) ?_)
    simp [h]

/-- A set of values is a concatenation without brackets. -/
lemma yields_collected {arg : Reading} : (collected arg).Yields env fun f => ¬f.Delimited := by
  refine yields_then fun v => yields_pure ?_
  simp only [delimited_append]
  exact fun h => absurd h.1.2 (by decide)

lemma yields_extreme {name : String} {greatest : Bool} {arg : Reading} {window : Fragment}
    (h : window.Delimited) : (extreme name greatest arg window).Yields env Delimited := by
  have hname : (Fragment.text (if greatest then "MAX" else "MIN")).Delimited := by
    split <;> decide
  refine yields_read ?_
  split
  · exact yields_then fun _ => yields_pure (delimited_append.2 ⟨delimited_call hname, h⟩)
  · exact yields_then fun _ => yields_then fun _ => yields_then fun _ =>
      yields_pure compact_mixedExtreme.delimited

end Render

end PipelineSql
