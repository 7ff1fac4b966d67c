import PipelineSql.Proofs.Compact
import PipelineSql.Proofs.Numeral

/-!
# Names and constants are no joints

Names, constants and placeholders are pieces of a fragment by themselves. Read as the text that is
printed for them, they have no joints either: what a pipeline names `or` is put in quotes, and a
number starts with a digit.
-/

namespace PipelineSql

namespace Lexeme

variable {word cs ds : List Char}

/-- No joint is read in the text after a part of a word. -/
def Free (word cs : List Char) : Prop :=
  (ofChars .code 0 word cs).all (·.joint?.isNone) = true

instance (word cs : List Char) : Decidable (Free word cs) :=
  inferInstanceAs (Decidable ((ofChars .code 0 word cs).all (·.joint?.isNone) = true))

lemma all_ofWord (h : Joint.ofWord? word = none) :
    (ofWord word).all (·.joint?.isNone) = true := by
  unfold ofWord
  split
  · rfl
  · rw [h]
    rfl

lemma free_nil (h : Joint.ofWord? word = none) : Free word [] := by
  rw [Free, ofChars]
  exact all_ofWord h

/-- Characters of words go on with the word. -/
lemma free_word (hcs : ∀ c ∈ cs, isWordChar c = true) (h : Free (word ++ cs) ds) :
    Free word (cs ++ ds) := by
  induction cs generalizing word with
  | nil => rwa [List.append_nil] at h
  | cons c cs ih =>
    obtain ⟨hc, hcs⟩ := List.forall_mem_cons.1 hcs
    rw [List.append_cons] at h
    rw [Free, List.cons_append, ofChars, if_pos ⟨rfl, rfl, hc⟩]
    exact ih hcs h

/-- Does the character end a word without opening quotes or brackets? -/
def isBreak (c : Char) : Bool :=
  !isWordChar c && Zone.opened c = .code && c ≠ '(' && c ≠ ')'

lemma free_break {c : Char} (hc : isBreak c = true) (hword : Joint.ofWord? word = none)
    (h : Free [] cs) : Free word (c :: cs) := by
  simp only [isBreak, Bool.and_eq_true, Bool.not_eq_true', decide_eq_true_eq] at hc
  obtain ⟨⟨⟨hchar, hzone⟩, hopen⟩, hclose⟩ := hc
  have hafter : Zone.code.after c = .code := by rw [Zone.after, if_pos rfl, hzone]
  have hdepth : depthAfter .code 0 c = 0 := by
    rw [depthAfter, if_neg (by decide), if_neg hopen, if_neg hclose]
  rw [Free, ofChars, if_neg (by simp [hchar]), List.all_append, List.all_append, hafter, hdepth,
    all_ofWord hword, h]
  split
  · rfl
  · rfl

/-- A quote opens its zone. -/
lemma free_quote {z : Zone} {q : Char} (hz : z.quote? = some q)
    (h : (ofChars z 0 [] cs).all (·.joint?.isNone) = true) : Free [] (q :: cs) := by
  cases z with
  | code => cases hz
  | string | name =>
    cases hz
    rw [Free, ofChars, if_neg (by decide), if_neg (by decide), List.all_append]
    exact h

/-- Between quotes there are no words. -/
lemma all_quoted {z : Zone} {q : Char} (hz : z.quote? = some q) (h : Free [] ds) :
    (ofChars z 0 [] (Quoted.double q cs ++ q :: ds)).all (·.joint?.isNone) = true := by
  have hcode : z ≠ .code := Zone.ne_code_of_quote? hz
  -- A character of the zone is read by itself.
  have hstep (c : Char) (rest : List Char)
      (hrest : (ofChars (z.after c) 0 [] rest).all (·.joint?.isNone) = true) :
      (ofChars z 0 [] (c :: rest)).all (·.joint?.isNone) = true := by
    rw [ofChars, if_neg (by simp [hcode]), if_neg (by simp [hcode]), depthAfter, if_pos hcode,
      List.all_append, hrest]
    rfl
  have hclose : z.after q = .code := by rw [Zone.after, if_neg hcode, if_pos hz]
  induction cs with
  | nil =>
    refine hstep q ds ?_
    rw [hclose]
    exact h
  | cons c cs ih =>
    rw [Quoted.double]
    split
    · refine hstep q _ ?_
      rw [hclose]
      exact free_quote hz ih
    · next hne =>
      refine hstep c _ ?_
      have hafter : z.after c = z := by
        rw [Zone.after, if_neg hcode, if_neg]
        intro hquote
        exact hne (Option.some.inj (hquote.symm.trans hz))
      rw [hafter]
      exact ih

lemma free_encode {z : Zone} {q : Char} (hz : z.quote? = some q) (s : String) (h : Free [] ds) :
    Free [] ((Quoted.encode q s).toList ++ ds) := by
  rw [Quoted.encode, String.toList_ofList, List.cons_append, List.append_assoc]
  exact free_quote hz (all_quoted hz h)

/-! ## Names -/

/-- A word that is not reserved is no joint. -/
lemma ofWord?_of_not_isReserved {name : String} (h : isReserved name = false) :
    Joint.ofWord? name.toList = none := by
  have hne (s : String) (hs : reservedWords.contains s = true) :
      name.toList.map Char.toUpper ≠ s.toList := by
    intro heq
    rw [isReserved, heq, String.ofList_toList, hs] at h
    cases h
  unfold Joint.ofWord?
  rw [if_neg (hne "AND" rfl), if_neg (hne "OR" rfl), if_neg (hne "NOT" rfl)]

/-- A name, and what goes on after any word that is no joint. -/
lemma free_quoteName (name : String)
    (h : ∀ word, Joint.ofWord? word = none → Free word ds) :
    Free [] ((quoteName name).toList ++ ds) := by
  unfold quoteName
  split
  · next hbare =>
    unfold isBareName at hbare
    split at hbare
    · cases hbare
    · next c cs hname =>
      rw [Bool.and_eq_true, Bool.and_eq_true, List.all_eq_true, Bool.not_eq_true'] at hbare
      obtain ⟨⟨hc, hcs⟩, hreserved⟩ := hbare
      refine free_word ?_ (h _ (ofWord?_of_not_isReserved hreserved))
      rw [hname]
      refine List.forall_mem_cons.2 ⟨?_, hcs⟩
      simp [isWordChar, Char.isAlphanum, hc]
  · exact free_encode (z := .name) rfl name (h [] rfl)

lemma free_name (name : String) : Free [] (quoteName name).toList := by
  have hname : Free [] ((quoteName name).toList ++ []) :=
    free_quoteName name fun word hword => free_nil hword
  rwa [List.append_nil] at hname

/-- Two names with a point between them. -/
lemma free_qualified (s t : String) : Free [] (quoteName s ++ "." ++ quoteName t).toList := by
  rw [String.toList_append, String.toList_append, List.append_assoc]
  refine free_quoteName s fun word hword => ?_
  exact free_break (by decide) hword (free_name t)

/-! ## Numbers -/

lemma ofWord?_of_isDigit {c : Char} (h : c.isDigit = true) (cs : List Char) :
    Joint.ofWord? (c :: cs) = none := by
  have hupper : c.toUpper = c := by
    unfold Char.toUpper
    rw [dif_neg]
    rintro ⟨hle, -⟩
    rw [Char.isDigit, Bool.and_eq_true, decide_eq_true_eq, decide_eq_true_eq] at h
    exact absurd (UInt32.le_trans hle h.2) (by decide)
  have hne (s : String) (hs : s.toList.head?.all Char.isDigit = false) :
      (c :: cs).map Char.toUpper ≠ s.toList := by
    rw [List.map_cons, hupper]
    intro heq
    rw [← heq, List.head?_cons, Option.all_some, h] at hs
    cases hs
  unfold Joint.ofWord?
  rw [if_neg (hne "AND" rfl), if_neg (hne "OR" rfl), if_neg (hne "NOT" rfl)]

end Lexeme

open Lexeme

variable {word cs ds : List Char}

/-- A word that starts with digits is no joint. -/
lemma Digits.ofWord?_append (h : Digits cs) (ds : List Char) : Joint.ofWord? (cs ++ ds) = none := by
  obtain ⟨c, cs, rfl⟩ := List.exists_cons_of_ne_nil h.ne_nil
  exact ofWord?_of_isDigit (h.isDigit c List.mem_cons_self) (cs ++ ds)

lemma Digits.ofWord?_eq_none (h : Digits cs) : Joint.ofWord? cs = none := by
  have hnone := h.ofWord?_append []
  rwa [List.append_nil] at hnone

lemma Digits.isWordChar (h : Digits cs) : ∀ c ∈ cs, isWordChar c = true := by
  intro c hc
  simp [PipelineSql.isWordChar, Char.isAlphanum, h.isDigit c hc]

/-- Digits are one word. -/
lemma Digits.free (h : Digits cs) (hds : Free cs ds) : Free [] (cs ++ ds) :=
  free_word h.isWordChar hds

lemma Digits.free_self (h : Digits cs) : Free [] cs := by
  have hfree := h.free (free_nil h.ofWord?_eq_none)
  rwa [List.append_nil] at hfree

lemma Minus.free (h : Minus ds) (hcs : Free [] cs) : Free [] (ds ++ cs) := by
  rcases h with rfl | rfl
  · exact hcs
  · exact free_break (by decide) rfl hcs

lemma Exponent.free (h : Exponent cs) (hword : Digits word) : Free word cs := by
  rcases h with rfl | ⟨sign, digits, hsign, hdigits, rfl⟩
  · exact free_nil hword.ofWord?_eq_none
  · show Free word (['e'] ++ (sign ++ digits))
    refine free_word (List.forall_mem_singleton.2 (by decide)) ?_
    rcases hsign with rfl | rfl
    · have hnone := hword.ofWord?_append (['e'] ++ digits)
      rw [← List.append_assoc] at hnone
      have hfree := free_word hdigits.isWordChar (free_nil hnone)
      rwa [List.append_nil] at hfree
    · exact free_break (by decide) (hword.ofWord?_append _) hdigits.free_self

lemma Fraction.free (h : Fraction cs) (hds : Exponent ds) (hword : Digits word) :
    Free word (cs ++ ds) := by
  rcases h with rfl | ⟨digits, hdigits, rfl⟩
  · exact hds.free hword
  · exact free_break (by decide) hword.ofWord?_eq_none (hdigits.free (hds.free hdigits))

lemma Numeral.free (h : Numeral cs) : Free [] cs := by
  cases h with
  | finite hsign hwhole hfraction hexponent =>
    rw [List.append_assoc, List.append_assoc]
    exact hsign.free (hwhole.free (hfraction.free hexponent hwhole))
  | named hsign hname =>
    refine hsign.free ?_
    simp only [doubleNames, List.mem_cons, List.not_mem_nil, or_false] at hname
    rcases hname with rfl | rfl
    · decide
    · decide

/-! ## Tokens -/

namespace Token

lemma free_bool (d : Dialect) (b : Bool) : Free [] (d.bool b).toList := by
  unfold Dialect.bool
  split
  · decide
  · decide
  · decide
  · decide

lemma free_dotStep (segment : String) : Free [] (dotStep segment).toList := by
  unfold dotStep
  split
  · next hdigits =>
    rw [String.toList_append, String.toList_append, List.append_assoc]
    refine free_break (by decide) rfl ?_
    cases hsegment : segment.toList with
    | nil => decide
    | cons c cs =>
      have hword : Digits (c :: cs) := by
        rw [← hsegment]
        exact ⟨by simp [hsegment], List.all_eq_true.1 hdigits⟩
      exact hword.free (free_break (by decide) hword.ofWord?_eq_none (free_nil rfl))
  · rw [String.toList_append]
    exact free_break (by decide) rfl (free_name segment)

lemma free_placeholder (n : Nat) : Free [] (placeholder n).toList := by
  rw [toList_placeholder]
  exact free_break (by decide) rfl (Digits.repr n).free_self

/-- A name, a constant or a placeholder is printed without joints. -/
lemma jointless_print (t : Token) (d : Dialect) (layout : Layout) (h : t.isSolid = true) :
    (Fragment.text (t.print d layout)).Jointless := by
  rw [Fragment.Jointless, Fragment.text, Fragment.lexemes_singleton, Piece.lexemes]
  show Free [] (t.print d layout).toList
  cases t with
  | text | newline | indent => cases h
  | ident name => exact free_name name
  | column source name => exact free_qualified source name
  | step segment => exact free_dotStep segment
  | table schema name =>
    cases schema with
    | none => exact free_name name
    | some schema => exact free_qualified schema name
  | int n => exact (numeral_int n).free
  | float x => exact (numeral_floatText x).free
  | string s =>
    have hstring := free_encode (z := .string) rfl s (free_nil rfl)
    rwa [List.append_nil] at hstring
  | bool b => exact free_bool d b
  | null => exact (by decide : Free [] "NULL".toList)
  | bind n => exact free_placeholder n

end Token

end PipelineSql
