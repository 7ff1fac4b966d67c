import Mathlib.Tactic.Lemma
import PipelineSql.Proofs.Lexing
import PipelineSql.Sql.Condition

/-!
# Reading conditions

The text of a condition is read the way the database reads it: `NOT` binds tighter than `AND`, and
`AND` tighter than `OR`. What stands in brackets is read by itself, and a bracket that is a whole
operand stands for what it holds. A condition reads as the list of its conjuncts, so how `AND` is
grouped does not show.

A text is well joined if it has no `OR` outside all brackets and `NOT` stands before an operand. Such
texts keep together on either side of `AND` and `OR`: each is read as it is by itself.
-/

namespace PipelineSql

/-- A word that joins conditions, or negates one. -/
inductive Joint where
  | and
  | or
  | not
deriving DecidableEq, Repr

/-- The joint that a word is, in whatever case. -/
def Joint.ofWord? (word : List Char) : Option Joint :=
  let upper := word.map Char.toUpper
  if upper = "AND".toList then some .and
  else if upper = "OR".toList then some .or
  else if upper = "NOT".toList then some .not
  else none

mutual

/-- What stands outside all brackets of a text. -/
inductive Lexeme where
  | joint (j : Joint)
  | word (cs : List Char)
  | char (c : Char)
  /-- A name, a constant or a placeholder, or all from `CASE` to `END`. -/
  | piece (p : Piece)
  /-- A bracket, with the conjuncts that it holds. -/
  | bracket (body : List Piece) (inside : List Conjunct)

/-- A condition that is no conjunction. -/
inductive Conjunct where
  | predicate (ls : List Lexeme)
  | negation (inside : List Conjunct)
  | disjunction (operands : List (List Conjunct))

end

/-! ## Text -/

namespace Lexeme

/-- The joint, if it is one. -/
def joint? : Lexeme → Option Joint
  | joint j => some j
  | _ => none

/-- Is it the given joint? -/
def joins (j : Joint) (l : Lexeme) : Bool :=
  l.joint? = some j

/-- The lexeme of a word; none if there is no character. -/
def ofWord (cs : List Char) : List Lexeme :=
  if cs = [] then [] else [((Joint.ofWord? cs).map joint).getD (word cs)]

/-- The number of open brackets after a character. -/
def depthAfter (zone : Zone) (depth : Nat) (c : Char) : Nat :=
  if zone ≠ .code then depth
  else if c = '(' then depth + 1
  else if c = ')' then depth - 1
  else depth

/-- The lexemes of text that goes on in a zone, some brackets deep and after a part of a word. Words
are told apart outside quotes and brackets only, and blanks outside quotes are left out. -/
def ofChars (zone : Zone) (depth : Nat) (word : List Char) : List Char → List Lexeme
  | [] => ofWord word
  | c :: cs =>
    if zone = .code ∧ depth = 0 ∧ isWordChar c then ofChars zone depth (word ++ [c]) cs
    else
      ofWord word ++ (if zone = .code ∧ c = ' ' then [] else [char c]) ++
        ofChars (zone.after c) (depthAfter zone depth c) [] cs

/-- Characters of words are one word. -/
lemma ofChars_word {word cs : List Char} (h : cs.all isWordChar) :
    ofChars .code 0 word cs = ofWord (word ++ cs) := by
  induction cs generalizing word with
  | nil => rw [ofChars, List.append_nil]
  | cons c cs ih =>
    obtain ⟨hc, hcs⟩ := Bool.and_eq_true_iff.1 (List.all_cons.symm.trans h)
    rw [ofChars, if_pos ⟨rfl, rfl, hc⟩, ih hcs, List.append_assoc]
    rfl

end Lexeme

/-! ## Reading -/

namespace Conjunct

/-- The disjunction of conditions. One condition stands for itself. -/
def any : List (List Conjunct) → List Conjunct
  | [c] => c
  | cs => [.disjunction cs]

/-- What stands between `AND`: a bracket, a predicate, or the negation of one. -/
def ofTerm : List Lexeme → List Conjunct
  | .joint .not :: ls => [.negation (ofTerm ls)]
  | [.bracket _ inside] => inside
  | ls => [.predicate ls]

/-- What stands between `OR`. -/
def ofTerms (ls : List Lexeme) : List Conjunct :=
  (ls.splitOnP (Lexeme.joins .and)).flatMap ofTerm

/-- What a text reads as. -/
def ofLexemes (ls : List Lexeme) : List Conjunct :=
  any ((ls.splitOnP (Lexeme.joins .or)).map ofTerms)

end Conjunct

mutual

/-- The lexemes of a piece. The extent of a query is not written, and so its text is read on. -/
def Piece.lexemes : Piece → List Lexeme
  | .token (.text s) => Lexeme.ofChars .code 0 [] s.toList
  | .token .newline => []
  | .token (.indent _) => []
  | .token t => [.piece (.token t)]
  | .group .round body => [.bracket body (Conjunct.ofLexemes (Piece.lexemesOf body))]
  | .group .cases body => [.piece (.group .cases body)]
  | .group _ body => Piece.lexemesOf body

/-- The lexemes of a sequence of pieces. -/
def Piece.lexemesOf : List Piece → List Lexeme
  | [] => []
  | p :: ps => p.lexemes ++ Piece.lexemesOf ps

end

namespace Fragment

attribute [local simp] Piece.lexemes Piece.lexemesOf

variable {f g : Fragment}

/-- What stands outside all brackets of a fragment. -/
def lexemes (f : Fragment) : List Lexeme :=
  Piece.lexemesOf f

/-- The conjuncts that a fragment reads as. -/
def conjuncts (f : Fragment) : List Conjunct :=
  Conjunct.ofLexemes f.lexemes

@[simp]
lemma lexemes_append (f g : Fragment) : (f ++ g).lexemes = f.lexemes ++ g.lexemes := by
  unfold lexemes
  induction f with
  | nil => rw [List.nil_append, Piece.lexemesOf, List.nil_append]
  | cons p ps ih => rw [List.cons_append, Piece.lexemesOf, Piece.lexemesOf, ih, List.append_assoc]

lemma lexemes_singleton (p : Piece) : lexemes [p] = p.lexemes := by
  rw [lexemes, Piece.lexemesOf, Piece.lexemesOf, List.append_nil]

@[simp]
lemma lexemes_paren (f : Fragment) : (paren f).lexemes = [.bracket f f.conjuncts] := by
  rw [paren, lexemes_singleton, Piece.lexemes]
  rfl

lemma lexemes_and : (text " AND ").lexemes = [.joint .and] := by
  rw [text, lexemes_singleton, Piece.lexemes]
  rfl

lemma lexemes_or : (text " OR ").lexemes = [.joint .or] := by
  rw [text, lexemes_singleton, Piece.lexemes]
  rfl

lemma lexemes_not : (text "NOT ").lexemes = [.joint .not] := by
  rw [text, lexemes_singleton, Piece.lexemes]
  rfl

/-- A bracket stands for what it holds. -/
@[simp]
lemma conjuncts_paren (f : Fragment) : (paren f).conjuncts = f.conjuncts := by
  rw [conjuncts, lexemes_paren]
  exact List.append_nil _

/-- `NOT` before a bracket negates all that it holds. -/
lemma conjuncts_not_paren (f : Fragment) :
    (text "NOT " ++ paren f).conjuncts = [.negation f.conjuncts] := by
  rw [conjuncts, lexemes_append, lexemes_not, lexemes_paren]
  rfl

end Fragment

/-! ## Texts that keep together -/

namespace Lexeme

/-- A bracket or a predicate: what does not start with a joint and has no `AND` and no `OR`. A `NOT`
within a predicate belongs to it, as in `IS NOT NULL`. -/
def Operand : List Lexeme → Prop
  | [] => False
  | l :: ls => l.joint? = none ∧ ∀ l' ∈ ls, l'.joins .and = false ∧ l'.joins .or = false

/-- An operand, or `NOT` before one. -/
def Term (ls : List Lexeme) : Prop :=
  Operand ls ∨ ∃ operand, ls = .joint .not :: operand ∧ Operand operand

end Lexeme

namespace Fragment

/-- There is no `OR` outside all brackets, and what stands between `AND` is an operand or `NOT`
before one. -/
structure WellJoined (f : Fragment) : Prop where
  noOr : ∀ l ∈ f.lexemes, l.joins .or = false
  terms : ∀ ls ∈ f.lexemes.splitOnP (Lexeme.joins .and), Lexeme.Term ls

section WellJoined

variable {f g : Fragment} {fs : List Fragment}

/-- Without `OR` the conjuncts are what stands between `AND`. -/
lemma WellJoined.conjuncts_eq (h : f.WellJoined) : f.conjuncts = Conjunct.ofTerms f.lexemes := by
  rw [conjuncts, Conjunct.ofLexemes, List.splitOnP_eq_singleton h.noOr]
  rfl

lemma splitOnP_and (f g : Fragment) :
    (f ++ text " AND " ++ g).lexemes.splitOnP (Lexeme.joins .and) =
      f.lexemes.splitOnP (Lexeme.joins .and) ++ g.lexemes.splitOnP (Lexeme.joins .and) := by
  rw [lexemes_append, lexemes_append, lexemes_and, List.append_assoc]
  exact List.splitOnP_append_cons _ _ rfl

lemma wellJoined_paren (f : Fragment) : (paren f).WellJoined := by
  constructor
  · rw [lexemes_paren]
    exact List.forall_mem_singleton.2 rfl
  · rw [lexemes_paren, List.splitOnP_eq_singleton (List.forall_mem_singleton.2 rfl)]
    refine List.forall_mem_singleton.2 (.inl ⟨rfl, ?_⟩)
    exact List.forall_mem_nil _

/-- `AND` between texts that are well joined. -/
lemma WellJoined.and (hf : f.WellJoined) (hg : g.WellJoined) :
    (f ++ text " AND " ++ g).WellJoined := by
  constructor
  · rw [lexemes_append, lexemes_append, lexemes_and]
    simp only [List.forall_mem_append, List.forall_mem_singleton]
    exact ⟨⟨hf.noOr, rfl⟩, hg.noOr⟩
  · rw [splitOnP_and]
    exact List.forall_mem_append.2 ⟨hf.terms, hg.terms⟩

lemma WellJoined.conjuncts_and (hf : f.WellJoined) (hg : g.WellJoined) :
    (f ++ text " AND " ++ g).conjuncts = f.conjuncts ++ g.conjuncts := by
  rw [(hf.and hg).conjuncts_eq, hf.conjuncts_eq, hg.conjuncts_eq, Conjunct.ofTerms, splitOnP_and,
    List.flatMap_append]
  rfl

/-- Texts with `AND` between them are read one after another. -/
lemma wellJoined_joined_and (h : ∀ g ∈ f :: fs, g.WellJoined) :
    (joined " AND " (f :: fs)).WellJoined ∧
      (joined " AND " (f :: fs)).conjuncts = (f :: fs).flatMap conjuncts := by
  induction fs generalizing f with
  | nil =>
    rw [joined, List.flatMap_singleton]
    exact ⟨h f List.mem_cons_self, rfl⟩
  | cons g fs ih =>
    obtain ⟨hf, hrest⟩ := List.forall_mem_cons.1 h
    obtain ⟨hjoined, hread⟩ := ih hrest
    rw [joined, List.flatMap_cons, hf.conjuncts_and hjoined, hread]
    exact ⟨hf.and hjoined, rfl⟩

lemma splitOnP_joined_or (h : ∀ g ∈ f :: fs, g.WellJoined) :
    (joined " OR " (f :: fs)).lexemes.splitOnP (Lexeme.joins .or) = (f :: fs).map lexemes := by
  induction fs generalizing f with
  | nil => exact List.splitOnP_eq_singleton (h f List.mem_cons_self).noOr
  | cons g fs ih =>
    obtain ⟨hf, hrest⟩ := List.forall_mem_cons.1 h
    rw [joined, lexemes_append, lexemes_append, lexemes_or, List.append_assoc,
      List.singleton_append, List.splitOnP_append_cons _ _ rfl, List.splitOnP_eq_singleton hf.noOr,
      ih hrest]
    rfl

/-- Texts with `OR` between them are read as the disjunction of what each is read as. -/
lemma conjuncts_joined_or (h : ∀ g ∈ f :: fs, g.WellJoined) :
    (joined " OR " (f :: fs)).conjuncts = Conjunct.any ((f :: fs).map conjuncts) := by
  have hread : (f :: fs).map conjuncts = ((f :: fs).map lexemes).map Conjunct.ofTerms := by
    rw [List.map_map]
    exact List.map_congr_left fun g hg => (h g hg).conjuncts_eq
  rw [conjuncts, Conjunct.ofLexemes, splitOnP_joined_or h, hread]

end WellJoined

/-! ## Values -/

/-- There is no joint outside all brackets. -/
def Jointless (f : Fragment) : Prop :=
  f.lexemes.all (·.joint?.isNone) = true

instance (f : Fragment) : Decidable f.Jointless :=
  inferInstanceAs (Decidable (f.lexemes.all (·.joint?.isNone) = true))

/-- There is some text, and no joint outside all brackets. -/
def Unjoined (f : Fragment) : Prop :=
  f.lexemes.isEmpty = false ∧ f.Jointless

instance (f : Fragment) : Decidable f.Unjoined :=
  inferInstanceAs (Decidable (f.lexemes.isEmpty = false ∧ f.Jointless))

/-- There is no `AND` and no `OR` outside all brackets. -/
def Mild (f : Fragment) : Prop :=
  (f.lexemes.all fun l => !l.joins .and && !l.joins .or) = true

instance (f : Fragment) : Decidable f.Mild :=
  inferInstanceAs (Decidable ((f.lexemes.all fun l => !l.joins .and && !l.joins .or) = true))

section Unjoined

variable {f g : Fragment} {fs : List Fragment}

lemma mild_append : (f ++ g).Mild ↔ f.Mild ∧ g.Mild := by
  rw [Mild, lexemes_append, List.all_append, Bool.and_eq_true_iff]
  rfl

lemma mild_paren (f : Fragment) : (paren f).Mild := by
  rw [Mild, lexemes_paren]
  rfl

/-- A text without joints starts with something else than a joint. -/
lemma Unjoined.exists_cons (h : f.Unjoined) :
    ∃ l ls, f.lexemes = l :: ls ∧ l.joint? = none ∧ ∀ l' ∈ ls, l'.joint? = none := by
  obtain ⟨hsome, hnone⟩ := h
  cases hls : f.lexemes with
  | nil =>
    rw [hls] at hsome
    cases hsome
  | cons l ls =>
    rw [Jointless, hls, List.all_cons, Bool.and_eq_true_iff, List.all_eq_true] at hnone
    refine ⟨l, ls, rfl, Option.isNone_iff_eq_none.1 hnone.1, fun l' hl' => ?_⟩
    exact Option.isNone_iff_eq_none.1 (hnone.2 l' hl')

lemma Unjoined.mild (h : f.Unjoined) : f.Mild := by
  refine List.all_eq_true.2 fun l hl => ?_
  have hnone := Option.isNone_iff_eq_none.1 (List.all_eq_true.1 h.2 l hl)
  simp [Lexeme.joins, hnone]

lemma jointless_append : (f ++ g).Jointless ↔ f.Jointless ∧ g.Jointless := by
  rw [Jointless, lexemes_append, List.all_append, Bool.and_eq_true_iff]
  rfl

protected lemma Unjoined.append (hf : f.Unjoined) (hg : g.Jointless) : (f ++ g).Unjoined := by
  obtain ⟨l, ls, hls, -, -⟩ := hf.exists_cons
  refine ⟨?_, jointless_append.2 ⟨hf.2, hg⟩⟩
  rw [lexemes_append, hls]
  rfl

lemma unjoined_paren (f : Fragment) : (paren f).Unjoined := by
  rw [Unjoined, lexemes_paren]
  exact ⟨rfl, rfl⟩

lemma Unjoined.joined {separator : String} (hs : (text separator).Jointless)
    (h : ∀ g ∈ f :: fs, g.Unjoined) : (Fragment.joined separator (f :: fs)).Unjoined := by
  induction fs generalizing f with
  | nil =>
    rw [Fragment.joined]
    exact h f List.mem_cons_self
  | cons g fs ih =>
    obtain ⟨hf, hrest⟩ := List.forall_mem_cons.1 h
    rw [Fragment.joined]
    exact (hf.append hs).append (ih hrest).2

/-- A value and what follows it, if that has no `AND` and no `OR`, are one predicate. -/
lemma Unjoined.operand (hf : f.Unjoined) (hg : g.Mild) : Lexeme.Operand (f ++ g).lexemes := by
  obtain ⟨l, ls, hls, hl, hrest⟩ := hf.exists_cons
  rw [lexemes_append, hls]
  -- `f` is not empty, so a `NOT` of `g` does not come first.
  refine ⟨hl, fun l' hl' => ?_⟩
  rcases List.mem_append.1 hl' with hl' | hl'
  · simp [Lexeme.joins, hrest l' hl']
  · simpa using List.all_eq_true.1 hg l' hl'

lemma Mild.joins (h : f.Mild) :
    (∀ l ∈ f.lexemes, l.joins .or = false) ∧ ∀ l ∈ f.lexemes, l.joins .and = false := by
  refine ⟨fun l hl => ?_, fun l hl => ?_⟩
  · simpa using (Bool.and_eq_true_iff.1 (List.all_eq_true.1 h l hl)).2
  · simpa using (Bool.and_eq_true_iff.1 (List.all_eq_true.1 h l hl)).1

/-- Without `AND` and `OR` there is one term. -/
lemma Mild.wellJoined (h : f.Mild) (hterm : Lexeme.Term f.lexemes) : f.WellJoined := by
  obtain ⟨hor, hand⟩ := h.joins
  refine ⟨hor, ?_⟩
  rw [List.splitOnP_eq_singleton hand]
  exact List.forall_mem_singleton.2 hterm

lemma Unjoined.wellJoined_append (hf : f.Unjoined) (hg : g.Mild) : (f ++ g).WellJoined :=
  (mild_append.2 ⟨hf.mild, hg⟩).wellJoined (.inl (hf.operand hg))

lemma Unjoined.wellJoined (hf : f.Unjoined) : f.WellJoined := by
  have h := hf.wellJoined_append (g := []) rfl
  rwa [List.append_nil] at h

/-- `NOT` before a predicate. -/
lemma Unjoined.wellJoined_not (hf : f.Unjoined) : (text "NOT " ++ f).WellJoined := by
  refine (mild_append.2 ⟨by decide, hf.mild⟩).wellJoined (.inr ⟨f.lexemes, ?_, ?_⟩)
  · rw [lexemes_append, lexemes_not]
    rfl
  · have h := hf.operand (g := []) rfl
    rwa [List.append_nil] at h

lemma wellJoined_not_paren (f : Fragment) : (text "NOT " ++ paren f).WellJoined :=
  (unjoined_paren f).wellJoined_not

end Unjoined

end Fragment

/-! ## Conditions -/

namespace Condition

open Fragment

attribute [local simp] fragment fragments

variable {v l r : Fragment} {cs : List Condition}

lemma fragments_eq_map (cs : List Condition) : fragments cs = cs.map fragment := by
  induction cs with
  | nil => rw [fragments, List.map_nil]
  | cons c cs ih => rw [fragments, ih, List.map_cons]

/-- The text of the condition is well joined. -/
def WellJoined (c : Condition) : Prop :=
  c.fragment.WellJoined

lemma wellJoined_constant (truth : Bool) : (constant truth).WellJoined := by
  rw [WellJoined, fragment]
  refine Unjoined.wellJoined ?_
  cases truth
  · decide
  · decide

lemma wellJoined_isNull (h : v.Unjoined) : (isNull v).WellJoined := by
  rw [WellJoined, fragment]
  exact h.wellJoined_append (by decide)

lemma wellJoined_isNotNull (h : v.Unjoined) : (isNotNull v).WellJoined := by
  rw [WellJoined, fragment]
  exact h.wellJoined_append (by decide)

lemma wellJoined_relation {op : Comparison} (hl : l.Unjoined) (hr : r.Unjoined) :
    (relation op l r).WellJoined := by
  have hsign : (text s!" {op.sql} ").Mild := by
    cases op
    all_goals decide
  rw [WellJoined, fragment, List.append_assoc]
  exact hl.wellJoined_append (mild_append.2 ⟨hsign, hr.mild⟩)

lemma wellJoined_among {items : List Fragment} {negated : Bool} (h : v.Unjoined) :
    (among v items negated).WellJoined := by
  rw [WellJoined, fragment, List.append_assoc]
  refine h.wellJoined_append (mild_append.2 ⟨?_, mild_paren _⟩)
  cases negated
  · decide
  · decide

lemma wellJoined_test (h : v.Unjoined) : (test v).WellJoined := by
  rw [WellJoined, fragment]
  exact h.wellJoined

lemma wellJoined_testNot (h : v.Unjoined) : (testNot v).WellJoined := by
  rw [WellJoined, fragment]
  exact h.wellJoined_not

lemma wellJoined_both {c c' : Condition} (h : c.WellJoined) (h' : c'.WellJoined) :
    (both c c').WellJoined := by
  rw [WellJoined, fragment]
  exact h.and h'

lemma wellJoined_all (cs : List Condition) : (all cs).WellJoined := by
  rw [WellJoined, fragment]
  exact wellJoined_paren _

lemma wellJoined_any (cs : List Condition) : (any cs).WellJoined := by
  rw [WellJoined, fragment]
  exact wellJoined_paren _

lemma wellJoined_none (cs : List Condition) : (none cs).WellJoined := by
  rw [WellJoined, fragment]
  exact wellJoined_not_paren _

/-- What a condition is read as. -/
def conjuncts (c : Condition) : List Conjunct :=
  c.fragment.conjuncts

lemma conjuncts_all {c : Condition} (h : ∀ c' ∈ c :: cs, c'.WellJoined) :
    (all (c :: cs)).conjuncts = (c :: cs).flatMap conjuncts := by
  rw [conjuncts, fragment, conjuncts_paren, fragments_eq_map, List.map_cons,
    (wellJoined_joined_and (by simpa [WellJoined] using h)).2, ← List.map_cons, List.flatMap_map]
  rfl

lemma conjuncts_any {c : Condition} (h : ∀ c' ∈ c :: cs, c'.WellJoined) :
    (any (c :: cs)).conjuncts = Conjunct.any ((c :: cs).map conjuncts) := by
  rw [conjuncts, fragment, conjuncts_paren, fragments_eq_map, List.map_cons,
    conjuncts_joined_or (by simpa [WellJoined] using h), ← List.map_cons, List.map_map]
  rfl

lemma conjuncts_none {c : Condition} (h : ∀ c' ∈ c :: cs, c'.WellJoined) :
    (none (c :: cs)).conjuncts = [.negation (Conjunct.any ((c :: cs).map conjuncts))] := by
  rw [conjuncts, fragment, conjuncts_not_paren, ← conjuncts_any h, conjuncts, fragment,
    conjuncts_paren]

/-- Conditions in brackets with `AND` between them are read one after another. -/
lemma conjuncts_of_conjunction? {f : Fragment} (h : ∀ c ∈ cs, c.WellJoined)
    (hf : conjunction? cs = some f) : f.WellJoined ∧ f.conjuncts = cs.flatMap conjuncts := by
  -- The text so far is put in brackets, so it is read by itself again.
  have step (cs : List Condition) (acc : Fragment) (hacc : acc.WellJoined) :
      let f := cs.foldl (fun acc c => paren acc ++ text " AND " ++ paren c.fragment) acc
      f.WellJoined ∧ f.conjuncts = acc.conjuncts ++ cs.flatMap conjuncts := by
    induction cs generalizing acc with
    | nil => exact ⟨hacc, (List.append_nil _).symm⟩
    | cons c cs ih =>
      have hboth := (wellJoined_paren acc).and (wellJoined_paren c.fragment)
      have hread := (wellJoined_paren acc).conjuncts_and (wellJoined_paren c.fragment)
      rw [conjuncts_paren, conjuncts_paren] at hread
      obtain ⟨hwell, heq⟩ := ih _ hboth
      refine ⟨hwell, heq.trans ?_⟩
      rw [hread, List.append_assoc]
      rfl
  cases cs with
  | nil => cases hf
  | cons c cs =>
    cases hf
    exact step cs _ (h c List.mem_cons_self)

end Condition

end PipelineSql
