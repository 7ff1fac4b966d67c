import Mathlib.Data.List.Forall2
import Mathlib.Data.List.TakeDrop
import PipelineSql.Proofs.Lexing
import PipelineSql.Proofs.Relation.Coupling

/-!
# The steps of a path

A field is addressed in two ways: by an SQL/JSON path under a root, and in dot notation behind the
expression of a document. The two quote names by different rules. Here both texts are read back,
step by step.

Main result: on an admissible field name both denote the segments of the name, in order. A segment
of digits is an element of an array, any other segment a member.
-/

namespace PipelineSql

/-! ## Reading steps -/

/-- A step into a JSON value. -/
inductive Step where
  | member (name : String)
  /-- An element of an array, by the digits of its position. -/
  | element (digits : String)
deriving DecidableEq, Repr

/-- What a segment of a dotted name stands for. -/
def Step.ofSegment (segment : String) : Step :=
  if isDigits segment then .element segment else .member segment

/-- Is the text a letter with letters, digits and underscores behind it? -/
def isPathName (s : String) : Bool :=
  match s.toList with
  | [] => false
  | c :: cs => c.isAlpha && cs.all isWordChar

variable {bare : String → Bool}

/-- The step at the head of a text: `[digits]`, `.name` with a bare name that goes as far as it can,
or `."name"`. A quote inside a quoted name and a backslash there, which the two notations escape in
different ways, are refused. -/
def readStep? (bare : String → Bool) : List Char → Option (Step × List Char)
  | '[' :: cs =>
    match cs.span Char.isDigit with
    | (d :: ds, ']' :: rest) => some (.element (String.ofList (d :: ds)), rest)
    | _ => none
  | '.' :: '"' :: cs =>
    match cs.span fun c => c ≠ '"' && c ≠ '\\' with
    | (name, '"' :: rest) =>
      if rest.head? = some '"' then none else some (.member (String.ofList name), rest)
    | _ => none
  | '.' :: cs =>
    let name := String.ofList (cs.takeWhile isWordChar)
    if bare name then some (.member name, cs.dropWhile isWordChar) else none
  | _ => none

/-- A step is not empty. -/
lemma length_readStep? {cs rest : List Char} {s : Step} (h : readStep? bare cs = some (s, rest)) :
    rest.length < cs.length := by
  unfold readStep? at h
  split at h
  · next cs =>
    split at h
    · next d ds rest' hspan =>
      cases h
      rw [List.span_eq_takeWhile_dropWhile, Prod.mk.injEq] at hspan
      have hle := (List.dropWhile_suffix Char.isDigit (l := cs)).length_le
      rw [hspan.2, List.length_cons] at hle
      rw [List.length_cons]
      omega
    · cases h
  · next cs =>
    split at h
    · next name rest' hspan =>
      split at h
      · cases h
      · cases h
        rw [List.span_eq_takeWhile_dropWhile, Prod.mk.injEq] at hspan
        have hle := (List.dropWhile_suffix (fun c => c ≠ '"' && c ≠ '\\') (l := cs)).length_le
        rw [hspan.2, List.length_cons] at hle
        simp only [List.length_cons]
        omega
    · cases h
  · next cs _ =>
    dsimp only at h
    split at h
    · cases h
      exact Nat.lt_succ_of_le (List.dropWhile_suffix isWordChar).length_le
    · cases h
  · cases h

/-- All steps of a text. -/
def readSteps? (bare : String → Bool) (cs : List Char) : Option (List Step) :=
  if cs = [] then some []
  else
    match h : readStep? bare cs with
    | some (s, rest) =>
      have : rest.length < cs.length := length_readStep? h
      (readSteps? bare rest).map (s :: ·)
    | none => none
termination_by cs.length

/-- The steps of an SQL/JSON path, and whether they start from each element of the root. -/
def readPath? : List Char → Option (Bool × List Step)
  | '$' :: '[' :: '*' :: ']' :: cs => (readSteps? isPathName cs).map (true, ·)
  | '$' :: cs => (readSteps? isPathName cs).map (false, ·)
  | _ => none

/-! ## Spelling steps -/

/-- The ways to write a step. -/
inductive Step.Spells (bare : String → Bool) : Step → List Char → Prop where
  | element {digits : String} :
    isDigits digits = true →
    digits ≠ "" →
    Spells bare (.element digits) ('[' :: (digits.toList ++ [']']))
  | bare {name : String} :
    bare name = true →
    name.toList.all isWordChar = true →
    name ≠ "" →
    Spells bare (.member name) ('.' :: name.toList)
  | quoted {name : String} :
    '"' ∉ name.toList →
    '\\' ∉ name.toList →
    Spells bare (.member name) ('.' :: '"' :: (name.toList ++ ['"']))

/-- Does the text end here, or go on with a step? -/
def OpensStep (rest : List Char) : Prop :=
  ∀ c ∈ rest.head?, c = '.' ∨ c = '['

namespace Step.Spells

variable {s : Step} {cs : List Char}

lemma opens (h : Spells bare s cs) (rest : List Char) : OpensStep (cs ++ rest) := by
  cases h with
  | element => rintro _ ⟨⟩; exact .inr rfl
  | bare => rintro _ ⟨⟩; exact .inl rfl
  | quoted => rintro _ ⟨⟩; exact .inl rfl

/-- A step is read back from what spells it, whatever step comes next. -/
lemma readStep? (h : Spells bare s cs) {rest : List Char} (hrest : OpensStep rest) :
    readStep? bare (cs ++ rest) = some (s, rest) := by
  cases h with
  | @element digits hdigits hne =>
    have hspan := takeWhile_append_head (r := ']' :: rest) (List.all_eq_true.1 hdigits)
      (by rintro _ ⟨⟩; rfl)
    obtain ⟨d, ds, hds⟩ := List.exists_cons_of_ne_nil (mt String.toList_eq_nil_iff.1 hne)
    have hname : String.ofList (d :: ds) = digits := by rw [← hds, String.ofList_toList]
    rw [List.cons_append, List.append_assoc, List.singleton_append, PipelineSql.readStep?,
      List.span_eq_takeWhile_dropWhile, hspan.1, hspan.2, hds]
    simp only [hname]
  | @bare name hbare hword hne =>
    have hspan := takeWhile_append_head (List.all_eq_true.1 hword) fun c hc => by
      rcases hrest c hc with rfl | rfl <;> decide
    obtain ⟨c, cs, hcs⟩ := List.exists_cons_of_ne_nil (mt String.toList_eq_nil_iff.1 hne)
    -- a name that goes on as a word does not start with a quote
    have hc : c ≠ '"' := by
      rintro rfl
      rw [hcs] at hword
      simp at hword
      exact absurd hword.1 (by decide)
    rw [hcs, List.cons_append] at hspan
    rw [List.cons_append, hcs, List.cons_append]
    unfold PipelineSql.readStep?
    split
    · next heq => cases heq
    · next heq => cases heq; exact absurd rfl hc
    · next heq =>
      cases heq
      rw [hspan.1, hspan.2, ← hcs, String.ofList_toList, if_pos hbare]
    · next _ _ h => exact absurd rfl (h _)
  | @quoted name hquote hslash =>
    have hplain : name.toList.all (fun c => c ≠ '"' && c ≠ '\\') = true := by
      rw [List.all_eq_true]
      intro c hc
      have h₁ : c ≠ '"' := fun h => hquote (h ▸ hc)
      have h₂ : c ≠ '\\' := fun h => hslash (h ▸ hc)
      simp [h₁, h₂]
    have hspan := takeWhile_append_head (r := '"' :: rest) (List.all_eq_true.1 hplain)
      (by rintro _ ⟨⟩; rfl)
    have hnext : rest.head? ≠ some '"' := by
      intro h
      rcases hrest _ h with h | h <;> cases h
    rw [List.cons_append, List.cons_append, List.append_assoc, List.singleton_append,
      PipelineSql.readStep?, List.span_eq_takeWhile_dropWhile, hspan.1, hspan.2]
    simp [hnext]

end Step.Spells

lemma opensStep_nil : OpensStep [] := by
  rintro _ ⟨⟩

/-- Steps that are written one after the other are read back. -/
lemma readSteps?_spelled {steps : List Step} {texts : List (List Char)}
    (h : List.Forall₂ (Step.Spells bare) steps texts) :
    OpensStep texts.flatten ∧ readSteps? bare texts.flatten = some steps := by
  induction h with
  | nil => exact ⟨opensStep_nil, by rw [List.flatten_nil, readSteps?, if_pos rfl]⟩
  | @cons s text steps texts hs _ ih =>
    have hread := hs.readStep? ih.1
    have hne : text ++ texts.flatten ≠ [] := by
      rintro hnil
      rw [hnil] at hread
      cases hread
    refine ⟨hs.opens _, ?_⟩
    rw [List.flatten_cons, readSteps?, if_neg hne]
    split
    · next s' rest heq =>
      rw [hread] at heq
      cases heq
      rw [ih.2, Option.map_some]
    · next heq =>
      rw [hread] at heq
      cases heq

/-! ## The segments of a name -/

lemma Quoted.double_eq_self {q : Char} {cs : List Char} (h : q ∉ cs) : double q cs = cs := by
  induction cs with
  | nil => rfl
  | cons c cs ih =>
    rw [List.mem_cons, not_or] at h
    rw [double, if_neg (Ne.symm h.1), ih h.2]

section Segment

variable {segment : String}

/-- A segment is made of digits, or of a word that does not start with a digit. -/
lemma word_of_isSegment (h : isSegment segment = true) :
    segment ≠ "" ∧ segment.toList.all isWordChar = true := by
  unfold isSegment at h
  split at h
  · cases h
  · next c cs hcs =>
    refine ⟨fun hnil => by simp [hnil] at hcs, ?_⟩
    rw [hcs]
    rw [Bool.or_eq_true, Bool.and_eq_true, Bool.or_eq_true] at h
    rcases h with ⟨hc, hword⟩ | hdigits
    · rw [List.all_cons, hword, Bool.and_true]
      rcases hc with hc | hc
      · simp [isWordChar, Char.isAlphanum, hc]
      · simp [isWordChar, hc]
    · rw [isDigits, hcs] at hdigits
      rw [List.all_eq_true] at hdigits ⊢
      intro d hd
      simp [isWordChar, Char.isAlphanum, hdigits d hd]

lemma quoted_of_isSegment (h : isSegment segment = true) :
    Step.Spells bare (.member segment) ('.' :: '"' :: (segment.toList ++ ['"'])) := by
  have hword := List.all_eq_true.1 (word_of_isSegment h).2
  refine .quoted (fun hmem => ?_) fun hmem => ?_
  · exact absurd (hword _ hmem) (by decide)
  · exact absurd (hword _ hmem) (by decide)

/-- The step of an SQL/JSON path spells its segment. -/
lemma spells_jsonStep (h : isSegment segment = true) :
    (Step.ofSegment segment).Spells isPathName (jsonStep segment).toList := by
  obtain ⟨hne, hword⟩ := word_of_isSegment h
  obtain ⟨c, cs, hcs⟩ := List.exists_cons_of_ne_nil (mt String.toList_eq_nil_iff.1 hne)
  by_cases hdigits : isDigits segment = true
  · simpa [jsonStep, hcs, Step.ofSegment, hdigits, String.toList_append]
      using Step.Spells.element hdigits hne
  by_cases hc : c.isAlpha = true
  · have hbare : isPathName segment = true := by
      rw [hcs, List.all_cons, Bool.and_eq_true] at hword
      simp [isPathName, hcs, hc, hword.2]
    simpa [jsonStep, hcs, Step.ofSegment, hdigits, hc, String.toList_append]
      using Step.Spells.bare hbare hword hne
  · simpa [jsonStep, hcs, Step.ofSegment, hdigits, hc, String.toList_append]
      using quoted_of_isSegment h

/-- The step of dot notation spells its segment. -/
lemma spells_dotStep (h : isSegment segment = true) :
    (Step.ofSegment segment).Spells isBareName (dotStep segment).toList := by
  obtain ⟨hne, hword⟩ := word_of_isSegment h
  by_cases hdigits : isDigits segment = true
  · simpa [dotStep, Step.ofSegment, hdigits, String.toList_append]
      using Step.Spells.element hdigits hne
  by_cases hbare : isBareName segment = true
  · simpa [dotStep, quoteName, Step.ofSegment, hdigits, hbare, String.toList_append]
      using Step.Spells.bare hbare hword hne
  · -- a word has no quote to be doubled
    have hquote : Quoted.double '"' segment.toList = segment.toList :=
      Quoted.double_eq_self fun hmem => absurd (List.all_eq_true.1 hword _ hmem) (by decide)
    simpa [dotStep, quoteName, Step.ofSegment, hdigits, hbare, Quoted.encode, hquote,
      String.toList_append] using quoted_of_isSegment h

end Segment

section Segments

variable {segments : List String}

lemma toList_join_map (f : String → String) (segments : List String) :
    (String.join (segments.map f)).toList = (segments.map fun s => (f s).toList).flatten := by
  induction segments with
  | nil => rfl
  | cons s segments ih => simp [String.join_cons, String.toList_append, ih]

/-- Segments that are spelled one by one are read back. -/
lemma readSteps?_segments {f : String → String}
    (hf : ∀ s ∈ segments, (Step.ofSegment s).Spells bare (f s).toList) :
    readSteps? bare (String.join (segments.map f)).toList =
      some (segments.map Step.ofSegment) := by
  rw [toList_join_map]
  refine (readSteps?_spelled ?_).2
  rw [List.forall₂_map_left_iff, List.forall₂_map_right_iff, List.forall₂_same]
  exact hf

/-- Steps do not start with `[*]`. -/
lemma readPath?_root {cs : List Char} {ss : List Step} (h : readSteps? isPathName cs = some ss) :
    readPath? ('$' :: cs) = some (false, ss) := by
  unfold readPath?
  split
  · next cs heq =>
    cases heq
    have hnone : readStep? isPathName ('[' :: '*' :: ']' :: cs) = none := by
      simp [readStep?, List.span_eq_takeWhile_dropWhile]
    rw [readSteps?, if_neg (List.cons_ne_nil _ _)] at h
    split at h
    · next heq =>
      rw [hnone] at heq
      cases heq
    · cases h
  · next heq =>
    cases heq
    rw [h, Option.map_some]
  · next h => exact absurd rfl (h _)

lemma readPath?_each {cs : List Char} {ss : List Step} (h : readSteps? isPathName cs = some ss) :
    readPath? ("$[*]".toList ++ cs) = some (true, ss) := by
  change (readSteps? isPathName cs).map (true, ·) = _
  rw [h, Option.map_some]

/-- The text of a place in dot notation is the text of its document with the steps behind it. -/
lemma printAll_dotFragment (d : Dialect) (layout : Layout) (l : Location) :
    Token.printAll d layout l.dotFragment.tokens =
      Token.printAll d layout l.doc.tokens ++ String.join (l.steps.map dotStep) := by
  have hsteps (steps : List String) :
      Fragment.tokens (steps.map fun s => Fragment.ofToken (.step s)).flatten =
        steps.map Token.step := by
    induction steps with
    | nil => rfl
    | cons s steps ih => rw [List.map_cons, List.map_cons, ← ih]; rfl
  rw [Location.dotFragment, Fragment.tokens_append, hsteps, Token.printAll, List.map_append,
    String.join_append, List.map_map]
  rfl

end Segments

/-- The two ways to address a field denote the same steps. For every admissible field name, the
SQL/JSON path reads as the segments of the name, those of digits as elements and the others as
members. At any place with these steps, dot notation writes text that reads as the same steps behind
the document, and the SQL/JSON path is that of the name, with `[*]` behind its root if the steps
start from each element. -/
theorem path_renderings_denote_same_steps {name : String}
    (h : (Path.ofString name).isFieldName = true) :
    let path := Path.ofString name
    let denoted := path.segments.map Step.ofSegment
    readPath? path.json.toList = some (false, denoted) ∧
      ∀ l : Location, l.steps = path.segments →
        (∀ d layout, ∃ behind,
          Token.printAll d layout l.dotFragment.tokens =
              Token.printAll d layout l.doc.tokens ++ behind ∧
            readSteps? isBareName behind.toList = some denoted) ∧
        (∃ behind, path.json = "$" ++ behind ∧
          l.path = (if l.each then "$[*]" else "$") ++ behind) ∧
        readPath? l.path.toList = some (l.each, denoted) := by
  intro path denoted
  have hsegments : ∀ s ∈ path.segments, isSegment s = true := by
    simp only [Path.isFieldName, Bool.and_eq_true] at h
    exact List.all_eq_true.1 h.1.1
  have hsteps : steps path.segments = path.segments := by
    refine if_neg fun hempty => ?_
    exact absurd (hsegments "" (by simp [hempty])) (by decide)
  have hjson : path.json = "$" ++ String.join (path.segments.map jsonStep) := by
    rw [Path.json, jsonPath, hsteps]
  have hread := readSteps?_segments fun s hs => spells_jsonStep (hsegments s hs)
  refine ⟨?_, fun l hl => ⟨fun d layout => ?_, ⟨_, hjson, ?_⟩, ?_⟩⟩
  · rw [hjson, String.toList_append]
    exact readPath?_root hread
  · refine ⟨_, printAll_dotFragment d layout l, ?_⟩
    rw [hl]
    exact readSteps?_segments fun s hs => spells_dotStep (hsegments s hs)
  · rw [Location.path, hl]
  · rw [Location.path, hl, String.toList_append]
    cases l.each with
    | false => exact readPath?_root hread
    | true => exact readPath?_each hread

/-- A name with a reserved word, an underscore in front and a position, below an array. -/
theorem reserved_names_denote_same_steps :
    let place : Location := ⟨"doc", ["_id", "order", "0", "A_1"], true, true⟩
    let denoted := [.member "_id", .member "order", .element "0", .member "A_1"]
    (Path.ofString "_id.order.0.A_1").isFieldName = true ∧
      readPath? (Path.ofString "_id.order.0.A_1").json.toList = some (false, denoted) ∧
      (∃ behind,
        Token.printAll .oracle19c .compact place.dotFragment.tokens = "doc" ++ behind ∧
          readSteps? isBareName behind.toList = some denoted) ∧
      readPath? place.path.toList = some (true, denoted) := by
  intro place denoted
  have h : (Path.ofString "_id.order.0.A_1").isFieldName = true := by decide +kernel
  have hsegments : (Path.ofString "_id.order.0.A_1").segments = ["_id", "order", "0", "A_1"] := by
    decide +kernel
  obtain ⟨hpath, hplaces⟩ := path_renderings_denote_same_steps h
  obtain ⟨hdots, -, heach⟩ := hplaces place hsegments.symm
  rw [hsegments] at hpath hdots heach
  exact ⟨h, hpath, hdots .oracle19c .compact, heach⟩

end PipelineSql
