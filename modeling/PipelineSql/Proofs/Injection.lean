import PipelineSql.Proofs.Binding
import PipelineSql.Proofs.Numeral

/-!
# Injection safety

What a pipeline supplies, be it a value, a key or a name, reaches the text of a statement through the
tokens. `Written` says how each kind of token may show there: strings and names inside quotes of
their own, names also as bare identifiers, numbers as numerals, positions as subscripts. Everything
else is fixed text.

Main result: the text of a translation is lexed token by token, so that every quote is closed and no
token shows in another way than it is written. Outside quotes the parentheses are balanced, no `;`
ends the statement, and no comment opens.
-/

namespace PipelineSql

/-! ## Fixed texts -/

/-- Is the text lexed on its own, calm and level? -/
def isSound (cs : List Char) : Bool :=
  match lex cs with
  | none => false
  | some ms => nesting 0 ms = some 0 ∧ ⟨';', .code⟩ ∉ ms ∧ ms.IsChain (¬ OpensComment · ·) ∧
      ∀ m ∈ ms.getLast?, m ≠ ⟨'-', .code⟩ ∧ m ≠ ⟨'/', .code⟩

lemma exists_lexes_of_isSound {cs : List Char} (h : isSound cs = true) : ∃ ms, Lexes cs ms := by
  unfold isSound at h
  split at h
  · cases h
  · next ms hms =>
    obtain ⟨hlevel, hseparator, hcomment, hend⟩ := of_decide_eq_true h
    exact ⟨ms, hms, ⟨hseparator, hcomment, hend⟩, level_of_nesting_zero hlevel⟩

lemma Common.lexes {s : String} (h : Common s) : ∃ ms, Lexes s.toList ms := by
  refine exists_lexes_of_isSound ?_
  cases h <;> rw [String.toList_ofList] <;> rfl

lemma Dialect.Says.lexes {d : Dialect} {s : String} (h : d.Says s) : ∃ ms, Lexes s.toList ms := by
  cases h with
  | common hs => exact hs.lexes
  | _ =>
    refine exists_lexes_of_isSound ?_
    rw [String.toList_ofList]
    rfl

lemma Wording.lexes {s : String} (h : Wording s) : ∃ ms, Lexes s.toList ms := by
  obtain ⟨d, hd⟩ := h.written
  cases hd with
  | said hs => exact hs.lexes
  | window hs =>
    have hall : ∀ s ∈ windowWords, isSound s.toList = true := by decide +kernel
    exact exists_lexes_of_isSound (hall s hs)

/-! ## Tokens -/

/-- A name as it is written: as a bare identifier, or in double quotes. -/
inductive WrittenName (name : String) : List Mark → Prop where
  | bare {c cs} : name.toList = c :: cs → c.isAlpha = true → (∀ x ∈ cs, isWordChar x = true) →
    WrittenName name (Zone.code.marks name.toList)
  | quoted : WrittenName name (Zone.name.marks (Quoted.encode '"' name).toList)

/-- A token as it is written. -/
inductive Written : Token → List Mark → Prop where
  | text {s ms} : Wording s ∨ s = "(" ∨ s = ")" → lex s.toList = some ms → Written (.text s) ms
  | newline {cs} : (∀ c ∈ cs, c = ' ' ∨ c = '\n') → Written .newline (Zone.code.marks cs)
  | indent {level cs} : (∀ c ∈ cs, c = ' ') → Written (.indent level) (Zone.code.marks cs)
  | ident {name ms} : WrittenName name ms → Written (.ident name) ms
  | column {source name ms ns} : WrittenName source ms → WrittenName name ns →
    Written (.column source name) (ms ++ ⟨'.', .code⟩ :: ns)
  | subscript {segment} : isDigits segment = true →
    Written (.step segment) (Zone.code.marks ('[' :: (segment.toList ++ [']'])))
  | member {segment ms} : WrittenName segment ms → Written (.step segment) (⟨'.', .code⟩ :: ms)
  | table {name ms} : WrittenName name ms → Written (.table none name) ms
  | qualified {schema name ms ns} : WrittenName schema ms → WrittenName name ns →
    Written (.table (some schema) name) (ms ++ ⟨'.', .code⟩ :: ns)
  | int {n} : Numeral (toString n).toList →
    Written (.int n) (Zone.code.marks (toString n).toList)
  | float {x} : Numeral (floatText x).toList →
    Written (.float x) (Zone.code.marks (floatText x).toList)
  | string {s} : Written (.string s) (Zone.string.marks (Quoted.encode '\'' s).toList)
  | bool {b s ms} : Wording s → lex s.toList = some ms → Written (.bool b) ms
  | null {ms} : lex "NULL".toList = some ms → Written .null ms
  | bind {n} : Digits (Nat.repr n).toList →
    Written (.bind n) (Zone.code.marks (':' :: (Nat.repr n).toList))

lemma lexes_quoteName (name : String) :
    ∃ ms, Lexes (quoteName name).toList ms ∧ WrittenName name ms := by
  unfold quoteName
  split
  · next hbare =>
    unfold isBareName at hbare
    split at hbare
    · cases hbare
    · next c cs hcs =>
      rw [Bool.and_eq_true, Bool.and_eq_true, List.all_eq_true] at hbare
      obtain ⟨⟨hc, hall⟩, -⟩ := hbare
      refine ⟨_, lexes_inert fun x hx => inert_of_isWordChar ?_, .bare hcs hc hall⟩
      rw [hcs] at hx
      rcases List.mem_cons.1 hx with rfl | hx
      · simp [isWordChar, Char.isAlphanum, hc]
      · exact hall x hx
  · exact ⟨_, lexes_encode (z := .name) rfl name, .quoted⟩

lemma lexes_dot : Lexes ['.'] [⟨'.', .code⟩] :=
  lexes_inert (inert_of_all (by decide))

/-- Two names with a point between them. -/
lemma lexes_qualified (s t : String) :
    ∃ ms ns, Lexes (quoteName s ++ "." ++ quoteName t).toList (ms ++ ⟨'.', .code⟩ :: ns) ∧
      WrittenName s ms ∧ WrittenName t ns := by
  obtain ⟨ms, hms, hs⟩ := lexes_quoteName s
  obtain ⟨ns, hns, ht⟩ := lexes_quoteName t
  refine ⟨ms, ns, ?_, hs, ht⟩
  rw [String.toList_append, String.toList_append, List.append_assoc]
  exact hms.append (lexes_dot.append hns)

lemma lexes_dotStep (segment : String) :
    ∃ ms, Lexes (dotStep segment).toList ms ∧ Written (.step segment) ms := by
  unfold dotStep
  split
  · next hdigits =>
    have hchars : ("[" ++ segment ++ "]").toList = '[' :: (segment.toList ++ [']']) := by
      rw [String.toList_append, String.toList_append]
      rfl
    rw [hchars]
    refine ⟨_, lexes_inert fun c hc => ?_, .subscript hdigits⟩
    rcases List.mem_cons.1 hc with rfl | hc
    · decide
    · rcases List.mem_append.1 hc with hc | hc
      · exact inert_of_isDigit (List.all_eq_true.1 hdigits c hc)
      · obtain rfl := List.mem_singleton.1 hc
        decide
  · obtain ⟨ms, hms, hname⟩ := lexes_quoteName segment
    refine ⟨_, ?_, .member hname⟩
    rw [String.toList_append]
    exact lexes_dot.append hms

lemma lexes_placeholder (n : Nat) :
    ∃ ms, Lexes (placeholder n).toList ms ∧ Written (.bind n) ms := by
  have hdigits := Digits.repr n
  rw [toList_placeholder]
  refine ⟨_, lexes_inert (List.forall_mem_cons.2 ⟨by decide, fun c hc => ?_⟩), .bind hdigits⟩
  exact inert_of_isDigit (hdigits.isDigit c hc)

lemma lexes_blanks {cs : List Char} (h : ∀ c ∈ cs, c = ' ' ∨ c = '\n') :
    Lexes cs (Zone.code.marks cs) := by
  refine lexes_inert fun c hc => ?_
  rcases h c hc with rfl | rfl
  · decide
  · decide

/-- Is the token one that statements have: if it is text, a wording or a parenthesis? -/
def Token.Fixed (t : Token) : Prop :=
  ∀ s, t = .text s → Wording s ∨ s = "(" ∨ s = ")"

namespace Token

variable {d : Dialect} {layout : Layout} {t : Token} {ms : List Mark}

/-- A token that is no text, or a wording, is lexed on its own. -/
lemma lexes (d : Dialect) (layout : Layout) (t : Token) (h : ∀ s, t = .text s → Wording s) :
    ∃ ms, Lexes (t.print d layout).toList ms ∧ Written t ms := by
  cases t with
  | text s =>
    obtain ⟨ms, hms⟩ := (h s rfl).lexes
    exact ⟨ms, hms, .text (.inl (h s rfl)) hms.lexed⟩
  | newline =>
    have hblank : ∀ c ∈ (print d layout .newline).toList, c = ' ' ∨ c = '\n' := by
      intro c hc
      cases layout with
      | compact => exact .inl (by simpa [print] using hc)
      | pretty => exact .inr (by simpa [print] using hc)
    exact ⟨_, lexes_blanks hblank, .newline hblank⟩
  | indent level =>
    have hblank : ∀ c ∈ (print d layout (.indent level)).toList, c = ' ' := by
      cases layout with
      | compact => exact nofun
      | pretty =>
        intro c hc
        simp only [print, if_true, String.toList_ofList] at hc
        exact List.eq_of_mem_replicate hc
    exact ⟨_, lexes_blanks fun c hc => .inl (hblank c hc), .indent hblank⟩
  | ident name =>
    obtain ⟨ms, hms, hname⟩ := lexes_quoteName name
    exact ⟨ms, hms, .ident hname⟩
  | column source name =>
    obtain ⟨ms, ns, hlex, hs, hn⟩ := lexes_qualified source name
    exact ⟨_, hlex, .column hs hn⟩
  | step segment => exact lexes_dotStep segment
  | table schema name =>
    cases schema with
    | none =>
      obtain ⟨ms, hms, hname⟩ := lexes_quoteName name
      exact ⟨ms, hms, .table hname⟩
    | some schema =>
      obtain ⟨ms, ns, hlex, hs, hn⟩ := lexes_qualified schema name
      exact ⟨_, hlex, .qualified hs hn⟩
  | int n => exact ⟨_, (numeral_int n).lexes, .int (numeral_int n)⟩
  | float x => exact ⟨_, (numeral_floatText x).lexes, .float (numeral_floatText x)⟩
  | string s => exact ⟨_, lexes_encode (z := .string) rfl s, .string⟩
  | bool b =>
    have hbool : Wording (d.bool b) := inferInstance
    obtain ⟨ms, hms⟩ := hbool.lexes
    exact ⟨ms, hms, .bool hbool hms.lexed⟩
  | null =>
    obtain ⟨ms, hms⟩ := Common.null.lexes
    exact ⟨ms, hms, .null hms.lexed⟩
  | bind n => exact lexes_placeholder n

/-- The marks of a token's text. -/
def marks (d : Dialect) (layout : Layout) (t : Token) : List Mark :=
  (lex (t.print d layout).toList).getD []

lemma marks_eq (h : lex (t.print d layout).toList = some ms) : t.marks d layout = ms := by
  rw [marks, h]
  rfl

lemma lex_opening : lex "(".toList = some [⟨'(', .code⟩] := by
  decide

lemma lex_closing : lex ")".toList = some [⟨')', .code⟩] := by
  decide

lemma marks_opening : (text "(").marks d layout = [⟨'(', .code⟩] :=
  marks_eq lex_opening

lemma marks_closing : (text ")").marks d layout = [⟨')', .code⟩] :=
  marks_eq lex_closing

/-- A token of statements is lexed on its own, is calm, and shows as it is written. -/
lemma Fixed.written (h : t.Fixed) (d : Dialect) (layout : Layout) :
    lex (t.print d layout).toList = some (t.marks d layout) ∧ Calm (t.marks d layout) ∧
      Written t (t.marks d layout) := by
  by_cases hparen : t = .text "(" ∨ t = .text ")"
  · rcases hparen with rfl | rfl
    · rw [marks_opening]
      exact ⟨lex_opening, ⟨by decide, .singleton _, by decide⟩, .text (.inr (.inl rfl)) lex_opening⟩
    · rw [marks_closing]
      exact ⟨lex_closing, ⟨by decide, .singleton _, by decide⟩, .text (.inr (.inr rfl)) lex_closing⟩
  · obtain ⟨ms, hms, hwritten⟩ := lexes d layout t fun s hs => by
      rcases h s hs with hw | rfl | rfl
      · exact hw
      · exact absurd (.inl hs) hparen
      · exact absurd (.inr hs) hparen
    rw [marks_eq hms.lexed]
    exact ⟨hms.lexed, hms.calm, hwritten⟩

/-- A token that is no text, or a wording, is level. -/
lemma level_marks (h : ∀ s, t = .text s → Wording s) : Level (t.marks d layout) := by
  obtain ⟨ms, hms, -⟩ := lexes d layout t h
  rw [marks_eq hms.lexed]
  exact hms.level

/-! ## Sequences of tokens -/

variable {ts : List Token}

/-- The marks of a sequence of tokens, one list for each. -/
def allMarks (d : Dialect) (layout : Layout) (ts : List Token) : List (List Mark) :=
  ts.map (marks d layout)

lemma allMarks_append (ts us : List Token) :
    (allMarks d layout (ts ++ us)).flatten =
      (allMarks d layout ts).flatten ++ (allMarks d layout us).flatten := by
  rw [allMarks, List.map_append, List.flatten_append]
  rfl

lemma allMarks_singleton (t : Token) : (allMarks d layout [t]).flatten = t.marks d layout :=
  List.append_nil _

/-- The text of a sequence is lexed token by token, and is calm. -/
lemma lex_printAll (d : Dialect) (layout : Layout) (h : ∀ t ∈ ts, t.Fixed) :
    lex (printAll d layout ts).toList = some (allMarks d layout ts).flatten ∧
      Calm (allMarks d layout ts).flatten := by
  induction ts with
  | nil => exact ⟨rfl, calm_nil⟩
  | cons t ts ih =>
    obtain ⟨ht, hts⟩ := List.forall_mem_cons.1 h
    obtain ⟨hlex, hcalm⟩ := ih hts
    obtain ⟨hlext, hcalmt, -⟩ := ht.written d layout
    refine ⟨?_, hcalmt.append hcalm⟩
    rw [printAll, List.map_cons, String.join_cons, String.toList_append]
    exact lex_append hlext hlex

lemma forall₂_written (h : ∀ t ∈ ts, t.Fixed) :
    List.Forall₂ Written ts (allMarks d layout ts) := by
  rw [allMarks, List.forall₂_map_right_iff]
  exact List.forall₂_same.2 fun t ht => ((h t ht).written d layout).2.2

/-- Numbering changes no tokens but placeholders. -/
lemma forall_numberFrom {P : Token → Prop} (values : List Literal) (next : Nat)
    (hbind : ∀ n, P (.bind n)) (h : ∀ t ∈ ts, P t) : ∀ t ∈ (numberFrom values next ts).1, P t := by
  induction ts generalizing next with
  | nil => exact h
  | cons t ts ih =>
    obtain ⟨ht, hts⟩ := List.forall_mem_cons.1 h
    cases t with
    | bind slot => exact List.forall_mem_cons.2 ⟨hbind _, ih _ hts⟩
    | _ => exact List.forall_mem_cons.2 ⟨ht, ih _ hts⟩

lemma fixed_numberFrom (values : List Literal) (next : Nat) (h : ∀ t ∈ ts, t.Fixed) :
    ∀ t ∈ (numberFrom values next ts).1, t.Fixed :=
  forall_numberFrom values next (fun _ => nofun) h

/-- Numbering changes no parentheses. -/
lemma nesting_numberFrom (values : List Literal) (next depth : Nat) (ts : List Token) :
    nesting depth (allMarks d layout (numberFrom values next ts).1).flatten =
      nesting depth (allMarks d layout ts).flatten := by
  induction ts generalizing next depth with
  | nil => rfl
  | cons t ts ih =>
    have hcons (u : Token) (us : List Token) : nesting depth (allMarks d layout (u :: us)).flatten =
        (nesting depth (u.marks d layout)).bind
          (nesting · (allMarks d layout us).flatten) := nesting_append _ _ _
    cases t with
    | bind slot =>
      have hlevel (n : Nat) : nesting depth ((bind n).marks d layout) = some depth :=
        level_marks (t := bind n) nofun depth
      simp only [numberFrom, hcons, hlevel, Option.bind_some, ih]
    | _ => simp only [numberFrom, hcons, ih]

/-- Tokens of statements, with balanced parentheses. -/
structure Sound (d : Dialect) (layout : Layout) (ts : List Token) : Prop where
  fixed : ∀ t ∈ ts, t.Fixed
  level : Level (allMarks d layout ts).flatten

namespace Sound

lemma nil : Sound d layout [] :=
  ⟨nofun, level_nil⟩

protected lemma append {us : List Token} (ht : Sound d layout ts) (hu : Sound d layout us) :
    Sound d layout (ts ++ us) where
  fixed := List.forall_mem_append.2 ⟨ht.fixed, hu.fixed⟩
  level := by
    rw [allMarks_append]
    exact ht.level.append hu.level

lemma singleton (h : ∀ s, t = .text s → Wording s) : Sound d layout [t] where
  fixed := List.forall_mem_singleton.2 fun s hs => .inl (h s hs)
  level := by
    rw [allMarks_singleton]
    exact level_marks h

lemma wording {s : String} (h : Wording s) : Sound d layout [.text s] := by
  refine singleton ?_
  rintro _ ⟨⟩
  exact h

/-- The brackets around a body balance. -/
lemma bracket (b : Bracket) (h : Sound d layout ts) :
    Sound d layout (b.opening ++ ts ++ b.closing) := by
  cases b with
  | round =>
    have htext (s : String) (hs : s = "(" ∨ s = ")") : (text s).Fixed := by
      rintro _ ⟨⟩
      exact .inr hs
    refine ⟨?_, fun depth => ?_⟩
    · refine List.forall_mem_append.2 ⟨List.forall_mem_cons.2 ⟨htext _ (.inl rfl), h.fixed⟩, ?_⟩
      exact List.forall_mem_singleton.2 (htext _ (.inr rfl))
    · have hopening : (allMarks d layout Bracket.round.opening).flatten = [⟨'(', .code⟩] :=
        (allMarks_singleton _).trans marks_opening
      have hclosing : (allMarks d layout Bracket.round.closing).flatten = [⟨')', .code⟩] :=
        (allMarks_singleton _).trans marks_closing
      rw [allMarks_append, allMarks_append, hopening, hclosing, nesting_append]
      -- the body is one deeper
      have hbody : nesting depth ([⟨'(', .code⟩] ++ (allMarks d layout ts).flatten) =
          some (depth + 1) := h.level (depth + 1)
      rw [hbody]
      rfl
  | cases => exact ((wording inferInstance).append h).append (wording inferInstance)
  | _ => exact (nil.append h).append nil

end Sound

end Token

/-! ## Statements -/

namespace Piece

variable {d : Dialect} {layout : Layout}

mutual

lemma sound : ∀ p : Piece, (∀ s ∈ p.texts, Wording s) → Token.Sound d layout p.tokens
  | .token t, h => by
    refine .singleton ?_
    rintro s rfl
    exact h s List.mem_cons_self
  | .group b body, h => .bracket b (allSound body h)

lemma allSound : ∀ ps : List Piece, (∀ s ∈ allTexts ps, Wording s) →
    Token.Sound d layout (flatten ps)
  | [], _ => .nil
  | p :: ps, h => by
    obtain ⟨hp, hps⟩ := List.forall_mem_append.1 h
    exact (sound p hp).append (allSound ps hps)

end

end Piece

/-- The text of a translation is lexed token by token: every quote is closed, and every token shows
as it is written, so that what the pipeline supplies stands in a string or a quoted name of its own,
as a bare identifier, as a numeral or as a subscript. Outside quotes the parentheses are balanced and
never close more than was opened, there is no `;`, and no comment opens. -/
theorem translate_lexes_as_written {p : Pipeline} {t : Target} {o : Options} {r : Rendition}
    (h : translate p t o = .ok r) :
    ∃ marks : List (List Mark),
      lex (r.print o).sql.toList = some marks.flatten ∧ List.Forall₂ Written r.tokens marks ∧
        nesting 0 marks.flatten = some 0 ∧ ⟨';', .code⟩ ∉ marks.flatten ∧
          marks.flatten.IsChain (¬ OpensComment · ·) := by
  obtain ⟨q, s, e, -, hs, rfl⟩ := translate_eq_ok_iff.1 h
  obtain ⟨f, hf⟩ := coupled_compilation hs o.dialect
  have hsound : Token.Sound o.dialect o.layout (s.fragment o.dialect).tokens :=
    Piece.allSound _ hf.worded
  have hfixed := Token.fixed_numberFrom e.values 1 hsound.fixed
  obtain ⟨hlex, hcalm⟩ := Token.lex_printAll o.dialect o.layout hfixed
  refine ⟨_, hlex, Token.forall₂_written hfixed, ?_, hcalm.noSeparator, hcalm.noComment⟩
  rw [Token.nesting_numberFrom]
  exact hsound.level 0

/-- A document with a key that would end the string and the statement, compared with a value that
would open a comment. -/
def hostileText : Pipeline :=
  let made : Expr := .document [("');", .field { path := ⟨["a"]⟩ })]
  { stages := [.addFields [(⟨["made"]⟩, made)],
      .filter (.compare .eq (.field { path := ⟨["a"]⟩ }) (.lit (.string "' --")))] }

/-- The string of a token. -/
def Token.string? : Token → Option String
  | .string s => some s
  | _ => none

theorem hostileText_lexes :
    ∃ r, translate hostileText { collection := "orders" } { inlineBinds := true } = .ok r ∧
      ["');", "' --"] ⊆ r.tokens.filterMap Token.string? ∧
        ∃ marks : List (List Mark),
          lex (r.print { inlineBinds := true }).sql.toList = some marks.flatten ∧
            List.Forall₂ Written r.tokens marks ∧ nesting 0 marks.flatten = some 0 ∧
              ⟨';', .code⟩ ∉ marks.flatten ∧ marks.flatten.IsChain (¬ OpensComment · ·) := by
  have hcheck : ((translate hostileText { collection := "orders" } { inlineBinds := true
      }).toOption.any fun r => ["');", "' --"] ⊆ r.tokens.filterMap Token.string?) = true := by
    decide +kernel
  cases h : translate hostileText { collection := "orders" } { inlineBinds := true } with
  | error x =>
    rw [h] at hcheck
    cases hcheck
  | ok r =>
    rw [h] at hcheck
    exact ⟨r, rfl, of_decide_eq_true hcheck, translate_lexes_as_written h⟩

end PipelineSql
