import Mathlib.Data.List.TakeWhile
import Mathlib.Tactic.Lemma
import PipelineSql.Settings.Expand

/-!
# Segments of a text with variables

A text with variables is a sequence of segments: plain text, names behind a dollar sign, in braces
or not, and dollar signs that stand for themselves. Two segments may stand side by side only if the
first ends where it must: a name without braces goes as far as it can, and a dollar sign is alone if
neither a brace nor a name follows.

Main result: replacing the variables of a text is replacing those of its segments, one by one and
once. Every text is a sequence of segments, so this says what becomes of any text.
-/

namespace PipelineSql

namespace Expand

/-- A part of a text with variables. -/
inductive Segment where
  | plain (text : String)
  /-- `$` and a name in braces. -/
  | braced (name : String)
  /-- `$` and a name. -/
  | bare (name : String)
  /-- `$` for itself. -/
  | dollar
  /-- `$` and a name behind a brace that is not closed. -/
  | unclosed (name : String)
deriving DecidableEq, Repr

namespace Segment

/-- The characters of a segment. -/
def written : Segment → List Char
  | .plain text => text.toList
  | .braced name => '$' :: '\x7b' :: name.toList ++ ['\x7d']
  | .bare name => '$' :: name.toList
  | .dollar => ['$']
  | .unclosed name => '$' :: '\x7b' :: name.toList

/-- Is the segment one of its kind in front of these characters? -/
def Fits (rest : List Char) : Segment → Prop
  | .plain text => '$' ∉ text.toList
  | .braced name => '\x7d' ∉ name.toList
  | .bare name => name ≠ "" ∧ name.toList.all isNameChar = true ∧ rest.head?.any isNameChar = false
  | .dollar => rest.head? ≠ some '\x7b' ∧ rest.head?.any isNameChar = false
  | .unclosed name => '\x7d' ∉ name.toList ∧ rest = []

instance (rest : List Char) : ∀ s : Segment, Decidable (s.Fits rest)
  | .plain text => inferInstanceAs (Decidable ('$' ∉ text.toList))
  | .braced name => inferInstanceAs (Decidable ('\x7d' ∉ name.toList))
  | .bare name => inferInstanceAs (Decidable (name ≠ "" ∧ name.toList.all isNameChar = true ∧
      rest.head?.any isNameChar = false))
  | .dollar => inferInstanceAs (Decidable (rest.head? ≠ some '\x7b' ∧
      rest.head?.any isNameChar = false))
  | .unclosed name => inferInstanceAs (Decidable ('\x7d' ∉ name.toList ∧ rest = []))

/-- The variable that a segment names. -/
def name? : Segment → Option String
  | .plain _ | .dollar => none
  | .braced name | .bare name | .unclosed name => some name

/-- The text that a segment stands for: the value of a variable as it is. -/
def image (vars : Variables) : Segment → String
  | .plain text => text
  | .dollar => "$"
  | .braced name | .bare name | .unclosed name => (vars.lookup name).getD ""

end Segment

/-- The characters of segments one after another. -/
def written : List Segment → List Char
  | [] => []
  | s :: rest => s.written ++ written rest

/-- Does every segment fit what follows it? -/
def WellFormed : List Segment → Prop
  | [] => True
  | s :: rest => s.Fits (written rest) ∧ WellFormed rest

instance decidableWellFormed : ∀ segments, Decidable (WellFormed segments)
  | [] => inferInstanceAs (Decidable True)
  | s :: rest =>
    have := decidableWellFormed rest
    inferInstanceAs (Decidable (s.Fits (written rest) ∧ WellFormed rest))

/-- Is the text written as these segments? -/
structure Spells (segments : List Segment) (text : String) : Prop where
  written : written segments = text.toList
  wellFormed : WellFormed segments

/-- What segments stand for: the first variable that has no value is missing, and if there is none,
the texts of the segments are joined. -/
def expansion (vars : Variables) (segments : List Segment) : Except MissingVariable String :=
  match (segments.filterMap Segment.name?).find? fun name => (vars.lookup name).isNone with
  | some name => .error ⟨name⟩
  | none => .ok (String.join (segments.map (Segment.image vars)))

variable {vars : Variables}

attribute [local simp] chars

/-! ## One segment -/

/-- What one segment stands for. -/
def Segment.meaning (vars : Variables) : Segment → Except MissingVariable String
  | .plain text => .ok text
  | .dollar => .ok "$"
  | .braced name | .bare name | .unclosed name => value vars name.toList.reverse

/-- What becomes of two parts of a text, one after the other. -/
def andThen (first rest : Except MissingVariable String) : Except MissingVariable String := do
  return (← first) ++ (← rest)

lemma andThen_empty (x : Except MissingVariable String) : andThen x (.ok "") = x := by
  cases x with
  | ok v => exact congrArg Except.ok String.append_empty
  | error e => rfl

lemma andThen_ok (a b : String) (x : Except MissingVariable String) :
    andThen (.ok a) (andThen (.ok b) x) = andThen (.ok (a ++ b)) x := by
  cases x with
  | ok v => exact congrArg Except.ok String.append_assoc.symm
  | error e => rfl

lemma chars_plain {cs : List Char} (h : '$' ∉ cs) (rest : List Char) :
    chars vars .text (cs ++ rest) = andThen (.ok (String.ofList cs)) (chars vars .text rest) := by
  induction cs with
  | nil =>
    rw [List.nil_append]
    cases chars vars .text rest with
    | ok v => exact congrArg Except.ok String.empty_append.symm
    | error e => rfl
  | cons c cs ih =>
    rw [List.mem_cons, not_or] at h
    have hstep : chars vars .text (c :: (cs ++ rest)) =
        andThen (.ok (String.ofList [c])) (chars vars .text (cs ++ rest)) := by
      rw [chars, if_neg (Ne.symm h.1)]
      rfl
    rw [List.cons_append, hstep, ih h.2, andThen_ok, ← String.ofList_append, List.singleton_append]

lemma chars_dollar (cs : List Char) : chars vars .text ('$' :: cs) = chars vars .dollar cs := by
  rw [chars, if_pos rfl]

lemma chars_brace (cs : List Char) :
    chars vars .text ('$' :: '\x7b' :: cs) = chars vars (.braced []) cs := by
  rw [chars_dollar, chars, if_pos rfl]

/-- A name in braces ends at the first closing brace. -/
lemma chars_braced {cs : List Char} (h : '\x7d' ∉ cs) (read rest : List Char) :
    chars vars (.braced read) (cs ++ '\x7d' :: rest) =
      andThen (value vars (cs.reverse ++ read)) (chars vars .text rest) := by
  induction cs generalizing read with
  | nil =>
    rw [List.nil_append, chars, if_pos rfl]
    rfl
  | cons c cs ih =>
    rw [List.mem_cons, not_or] at h
    rw [List.cons_append, chars, if_neg (Ne.symm h.1), ih h.2, List.reverse_cons, List.append_assoc,
      List.singleton_append]

/-- Without a closing brace the name goes to the end. -/
lemma chars_unclosed {cs : List Char} (h : '\x7d' ∉ cs) (read : List Char) :
    chars vars (.braced read) cs = value vars (cs.reverse ++ read) := by
  induction cs generalizing read with
  | nil => rfl
  | cons c cs ih =>
    rw [List.mem_cons, not_or] at h
    rw [chars, if_neg (Ne.symm h.1), ih h.2, List.reverse_cons, List.append_assoc,
      List.singleton_append]

/-- A name without braces ends where no character of a name follows. -/
lemma chars_name_end {rest : List Char} (h : rest.head?.any isNameChar = false)
    (read : List Char) :
    chars vars (.name read) rest = andThen (value vars read) (chars vars .text rest) := by
  cases rest with
  | nil => exact (andThen_empty _).symm
  | cons c cs =>
    have hc : isNameChar c = false := h
    rw [chars, chars, hc, if_neg Bool.false_ne_true]
    cases value vars read with
    | error e => rfl
    | ok v =>
      by_cases hdollar : c = '$'
      · simp only [hdollar, if_true]
        rfl
      · simp only [hdollar, if_false]
        cases chars vars .text cs with
        | ok w => exact congrArg Except.ok String.append_assoc
        | error e => rfl

lemma chars_name {cs : List Char} (hname : cs.all isNameChar = true) {rest : List Char}
    (h : rest.head?.any isNameChar = false) (read : List Char) :
    chars vars (.name read) (cs ++ rest) =
      andThen (value vars (cs.reverse ++ read)) (chars vars .text rest) := by
  induction cs generalizing read with
  | nil => exact chars_name_end h read
  | cons c cs ih =>
    rw [List.all_cons, Bool.and_eq_true] at hname
    rw [List.cons_append, chars, if_pos hname.1, ih hname.2, List.reverse_cons, List.append_assoc,
      List.singleton_append]

/-- A brace is no character of a name. -/
lemma isNameChar_brace : isNameChar '\x7b' = false := by
  decide +kernel

/-- A dollar sign starts no variable if neither a brace nor a name follows. -/
lemma chars_dollar_end {rest : List Char} (hbrace : rest.head? ≠ some '\x7b')
    (hname : rest.head?.any isNameChar = false) :
    chars vars .dollar rest = andThen (.ok "$") (chars vars .text rest) := by
  cases rest with
  | nil => rfl
  | cons c cs =>
    have hc : isNameChar c = false := hname
    have hne : c ≠ '\x7b' := fun heq => hbrace (congrArg some heq)
    rw [chars, chars, if_neg hne, hc, if_neg Bool.false_ne_true]
    by_cases hdollar : c = '$'
    · rw [if_pos hdollar, if_pos hdollar]
      rfl
    · rw [if_neg hdollar, if_neg hdollar]
      cases chars vars .text cs with
      | ok w => exact congrArg Except.ok String.append_assoc
      | error e => rfl

/-- The step of the loop: a segment that fits what follows is replaced, and then what follows is
looked at as text. -/
lemma chars_segment {s : Segment} {rest : List Char} (h : s.Fits rest) :
    chars vars .text (s.written ++ rest) =
      andThen (s.meaning vars) (chars vars .text rest) := by
  cases s with
  | plain text =>
    rw [Segment.written, chars_plain h, String.ofList_toList]
    rfl
  | braced name =>
    rw [Segment.written, List.append_assoc, List.cons_append, List.cons_append,
      List.singleton_append, chars_brace, chars_braced h, List.append_nil]
    rfl
  | bare name =>
    obtain ⟨hne, hname, hrest⟩ := h
    rw [Segment.written, Segment.meaning]
    cases hcs : name.toList with
    | nil => exact absurd (String.toList_eq_nil_iff.1 hcs) hne
    | cons c cs =>
      rw [hcs, List.all_cons, Bool.and_eq_true] at hname
      obtain ⟨hc, hcs⟩ := hname
      have hbrace : c ≠ '\x7b' := by
        rintro rfl
        rw [isNameChar_brace] at hc
        cases hc
      rw [List.cons_append, List.cons_append, chars_dollar, chars, if_neg hbrace, if_pos hc,
        chars_name hcs hrest, List.reverse_cons]
  | dollar =>
    rw [Segment.written, List.singleton_append, chars_dollar]
    exact chars_dollar_end h.1 h.2
  | unclosed name =>
    obtain ⟨hname, rfl⟩ := h
    rw [List.append_nil, Segment.written, chars_brace, chars_unclosed hname, List.append_nil]
    exact (andThen_empty _).symm

/-! ## All segments -/

lemma expansion_plain {s : Segment} (h : s.name? = none) (rest : List Segment) :
    expansion vars (s :: rest) = andThen (.ok (s.image vars)) (expansion vars rest) := by
  unfold expansion
  rw [List.filterMap_cons_none h, List.map_cons, String.join_cons]
  cases (rest.filterMap Segment.name?).find? fun name => (vars.lookup name).isNone <;> rfl

lemma expansion_variable {s : Segment} {name : String} (h : s.name? = some name)
    (himage : s.image vars = (vars.lookup name).getD "") (rest : List Segment) :
    expansion vars (s :: rest) =
      andThen (value vars name.toList.reverse) (expansion vars rest) := by
  unfold expansion value
  rw [List.filterMap_cons_some h, List.map_cons, String.join_cons, himage, List.reverse_reverse,
    String.ofList_toList, List.find?_cons]
  cases hvalue : vars.lookup name with
  | none =>
    simp only [hvalue]
    rfl
  | some v =>
    simp only [hvalue, Option.isNone_some]
    cases (rest.filterMap Segment.name?).find? fun name => (vars.lookup name).isNone <;> rfl

/-- A segment stands for its text, unless it names a variable that has no value. -/
lemma expansion_cons (s : Segment) (rest : List Segment) :
    expansion vars (s :: rest) = andThen (s.meaning vars) (expansion vars rest) := by
  cases s with
  | plain text => exact expansion_plain rfl rest
  | dollar => exact expansion_plain rfl rest
  | braced name => exact expansion_variable rfl rfl rest
  | bare name => exact expansion_variable rfl rfl rest
  | unclosed name => exact expansion_variable rfl rfl rest

/-- The whole loop, segment by segment. -/
lemma chars_written {segments : List Segment} (h : WellFormed segments) :
    chars vars .text (written segments) = expansion vars segments := by
  induction segments with
  | nil => rfl
  | cons s rest ih => rw [written, chars_segment h.1, ih h.2, expansion_cons]

/-! ## Every text is made of segments -/

/-- What follows the characters of a name is no character of a name. -/
lemma any_head?_dropWhile (cs : List Char) :
    (cs.dropWhile isNameChar).head?.any isNameChar = false := by
  have hhead := List.head?_dropWhile_not isNameChar cs
  cases hrest : (cs.dropWhile isNameChar).head? with
  | none => rfl
  | some c =>
    rw [hrest] at hhead
    exact hhead

/-- The first segment of a text that is not empty. -/
lemma exists_segment (c : Char) (cs : List Char) :
    ∃ (s : Segment) (rest : List Char),
      s.Fits rest ∧ s.written ++ rest = c :: cs ∧ rest.length ≤ cs.length := by
  by_cases hc : c = '$'
  · subst hc
    cases cs with
    | nil => exact ⟨.dollar, [], ⟨by simp, rfl⟩, rfl, le_rfl⟩
    | cons d ds =>
      by_cases hbrace : d = '\x7b'
      · subst hbrace
        by_cases hclosed : '\x7d' ∈ ds
        · obtain ⟨name, rest, rfl, hname⟩ := List.eq_append_cons_of_mem hclosed
          refine ⟨.braced (String.ofList name), rest, ?_, ?_, ?_⟩
          · rwa [Segment.Fits, String.toList_ofList]
          · simp [Segment.written]
          · simp only [List.length_cons, List.length_append]
            omega
        · refine ⟨.unclosed (String.ofList ds), [], ⟨?_, rfl⟩, ?_, Nat.zero_le _⟩
          · rwa [String.toList_ofList]
          · simp [Segment.written]
      · by_cases hname : isNameChar d = true
        · refine ⟨.bare (String.ofList (d :: ds.takeWhile isNameChar)), ds.dropWhile isNameChar,
            ⟨?_, ?_, any_head?_dropWhile ds⟩, ?_, ?_⟩
          · simp
          · rw [String.toList_ofList, List.all_cons, hname, List.all_takeWhile, Bool.and_true]
          · simp [Segment.written]
          · exact ((List.dropWhile_suffix _).length_le).trans (Nat.le_succ _)
        · refine ⟨.dollar, d :: ds, ⟨?_, Bool.eq_false_iff.2 hname⟩, rfl, le_rfl⟩
          simpa using hbrace
  · refine ⟨.plain (String.ofList [c]), cs, ?_, ?_, le_rfl⟩
    · rw [Segment.Fits, String.toList_ofList, List.mem_singleton]
      exact Ne.symm hc
    · simp [Segment.written]

lemma exists_segments (cs : List Char) :
    ∃ segments, WellFormed segments ∧ written segments = cs := by
  induction hn : cs.length using Nat.strong_induction_on generalizing cs with
  | _ n ih =>
    cases cs with
    | nil => exact ⟨[], trivial, rfl⟩
    | cons c cs =>
      obtain ⟨s, rest, hs, hwritten, hle⟩ := exists_segment c cs
      rw [List.length_cons] at hn
      obtain ⟨segments, hsegments, rfl⟩ := ih rest.length (by omega) rest rfl
      exact ⟨s :: segments, ⟨hs, hsegments⟩, hwritten⟩

end Expand

open Expand

/-- Variables are replaced by the grammar of segments. Every text is written as segments, and
however it is written, what becomes of it is what its segments stand for: if all variables that they
name have values, the plain texts, the values and the dollar signs one after another, and else the
first variable that has none is missing. A value is written as it is, whatever dollar signs it has,
so it is not expanded again. -/
theorem expand_follows_segments (vars : Variables) (text : String) :
    (∃ segments, Spells segments text) ∧
      ∀ segments, Spells segments text → expand vars text = expansion vars segments := by
  constructor
  · obtain ⟨segments, hwell, hwritten⟩ := exists_segments text.toList
    exact ⟨segments, hwritten, hwell⟩
  · rintro segments ⟨hwritten, hwell⟩
    rw [expand, ← hwritten]
    exact chars_written hwell

/-- A table with its schema, where the value of one variable looks like another. -/
def tableTemplate : List Segment :=
  [.plain "db_", .braced "SCHEMA", .plain ".", .bare "T1", .plain "-", .dollar, .bare "T1", .dollar]

/-- The dollar sign of a value stays, and so do those that start no variable. Where the schema has
no value, it is the variable that is missing. -/
theorem tableTemplate_expanded :
    Spells tableTemplate "db_$\x7bSCHEMA\x7d.$T1-$$T1$" ∧
      expand [("SCHEMA", "$T1"), ("T1", "orders")] "db_$\x7bSCHEMA\x7d.$T1-$$T1$" =
        .ok "db_$T1.orders-$orders$" ∧
      expand [("T1", "orders")] "db_$\x7bSCHEMA\x7d.$T1-$$T1$" = .error ⟨"SCHEMA"⟩ := by
  have hspells : Spells tableTemplate "db_$\x7bSCHEMA\x7d.$T1-$$T1$" :=
    ⟨by decide +kernel, by decide +kernel⟩
  refine ⟨hspells, ?_, ?_⟩
  · rw [(expand_follows_segments _ _).2 _ hspells]
    decide +kernel
  · rw [(expand_follows_segments _ _).2 _ hspells]
    decide +kernel

end PipelineSql
