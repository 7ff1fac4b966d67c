import Mathlib.Data.List.Chain
import Mathlib.Tactic.Lemma
import PipelineSql.Sql.Token

/-!
# Lexing of statements

A statement is read from left to right. A `'` opens a string and a `"` a quoted name; each goes on
to the next quote of its kind that is not doubled. `lex` marks every character with the zone in which
it stands, and fails if the text ends inside quotes.

A doubled quote marks its characters just as two quoted texts in a row would. So what is lexed on its
own is lexed alike as a part of a longer text, whatever stands around it: `lexFrom_append`.
-/

namespace PipelineSql

/-- What goes on as long as its characters are of a kind ends where another comes first. -/
lemma takeWhile_append_head {p : Char → Bool} {cs r : List Char} (h : ∀ c ∈ cs, p c = true)
    (hr : ∀ c ∈ r.head?, p c = false) :
    (cs ++ r).takeWhile p = cs ∧ (cs ++ r).dropWhile p = r := by
  rw [List.takeWhile_append_of_pos h, List.dropWhile_append_of_pos h]
  cases r with
  | nil => simp
  | cons c r => simp [hr c rfl]

/-- Where a character of a statement stands. The quotes belong to what they enclose. -/
inductive Zone where
  | code
  | string
  | name
deriving DecidableEq, Repr

/-- A character and where it stands. -/
structure Mark where
  char : Char
  zone : Zone
deriving DecidableEq, Repr

namespace Zone

/-- The quote around a zone. -/
def quote? : Zone → Option Char
  | .code => none
  | .string => some '\''
  | .name => some '"'

/-- The zone of a character that is met outside quotes. -/
def opened (c : Char) : Zone :=
  if c = '\'' then .string else if c = '"' then .name else .code

/-- All characters in one zone. -/
def marks (z : Zone) (cs : List Char) : List Mark :=
  cs.map (⟨·, z⟩)

end Zone

/-- The marks of a text that goes on in a zone. -/
def lexFrom : Zone → List Char → Option (List Mark)
  | .code, [] => some []
  | _, [] => none
  | .code, c :: cs => (lexFrom (.opened c) cs).map (⟨c, .opened c⟩ :: ·)
  | z, [c] => if z.quote? = some c then some [⟨c, z⟩] else none
  | z, c :: c' :: cs =>
    if z.quote? = some c then
      if c' = c then (lexFrom z cs).map (⟨c, z⟩ :: ⟨c', z⟩ :: ·)
      else (lexFrom .code (c' :: cs)).map (⟨c, z⟩ :: ·)
    else (lexFrom z (c' :: cs)).map (⟨c, z⟩ :: ·)

/-- The marks of a text, if all its quotes are closed. -/
def lex (cs : List Char) : Option (List Mark) :=
  lexFrom .code cs

namespace Zone

/-- The zone of the next character. -/
def around (z : Zone) (c : Char) : Zone :=
  if z = .code then opened c else z

/-- The zone in which the text goes on. -/
def after (z : Zone) (c : Char) : Zone :=
  if z = .code then opened c else if z.quote? = some c then .code else z

lemma opened_of_quote? {z : Zone} {q : Char} (h : z.quote? = some q) : opened q = z := by
  cases z <;> cases h <;> rfl

lemma ne_code_of_quote? {z : Zone} {q : Char} (h : z.quote? = some q) : z ≠ .code := by
  rintro rfl
  cases h

lemma marks_append (z : Zone) (cs ds : List Char) : z.marks (cs ++ ds) = z.marks cs ++ z.marks ds :=
  List.map_append

end Zone

open Zone

/-- One character at a time: a doubled quote closes its zone and opens it again. -/
lemma lexFrom_cons (z : Zone) (c : Char) (cs : List Char) :
    lexFrom z (c :: cs) = (lexFrom (z.after c) cs).map (⟨c, z.around c⟩ :: ·) := by
  by_cases hz : z = .code
  · subst hz
    simp [lexFrom, after, around]
  · cases cs with
    | nil =>
      by_cases hq : z.quote? = some c
      · simp [lexFrom, after, around, hz, hq]
      · cases z <;> simp_all [lexFrom, after, around]
    | cons c' cs =>
      by_cases hq : z.quote? = some c
      · by_cases hc : c' = c
        · subst hc
          have hopened := opened_of_quote? hq
          simp [lexFrom, after, around, hz, hq, hopened, Function.comp_def]
        · simp [lexFrom, after, around, hz, hq, hc]
      · simp [lexFrom, after, around, hz, hq]

/-- What is lexed on its own is lexed alike in front of any text. -/
lemma lexFrom_append {z : Zone} {cs ds : List Char} {ms : List Mark} (h : lexFrom z cs = some ms) :
    lexFrom z (cs ++ ds) = (lex ds).map (ms ++ ·) := by
  induction cs generalizing z ms with
  | nil =>
    cases z <;> cases h
    simp [lex]
  | cons c cs ih =>
    rw [lexFrom_cons] at h
    obtain ⟨ns, hns, rfl⟩ := Option.map_eq_some_iff.1 h
    rw [List.cons_append, lexFrom_cons, ih hns, Option.map_map]
    rfl

lemma lex_append {cs ds : List Char} {ms ns : List Mark} (hc : lex cs = some ms)
    (hd : lex ds = some ns) : lex (cs ++ ds) = some (ms ++ ns) := by
  rw [lex, lexFrom_append hc, hd]
  rfl

/-- A text without quotes is code. -/
lemma lex_of_opened {cs : List Char} (h : ∀ c ∈ cs, opened c = .code) :
    lex cs = some (Zone.code.marks cs) := by
  induction cs with
  | nil => rfl
  | cons c cs ih =>
    obtain ⟨hc, hcs⟩ := List.forall_mem_cons.1 h
    have hrest : lexFrom .code cs = some (Zone.code.marks cs) := ih hcs
    simp [lex, lexFrom_cons, after, around, hc, hrest, marks]

/-- A quoted text is one zone from quote to quote. -/
lemma lex_encode {z : Zone} {q : Char} (h : z.quote? = some q) (s : String) :
    lex (Quoted.encode q s).toList = some (z.marks (Quoted.encode q s).toList) := by
  have hz := ne_code_of_quote? h
  have hopened := opened_of_quote? h
  -- inside the quotes, a quote of the text closes the zone for no longer than one character
  have inside (cs : List Char) : lexFrom z (Quoted.double q cs ++ [q]) =
      some (z.marks (Quoted.double q cs ++ [q])) := by
    induction cs with
    | nil => simp [Quoted.double, lexFrom_cons, after, around, hz, h, lexFrom, marks]
    | cons c cs ih =>
      rw [Quoted.double]
      split
      · simp [lexFrom_cons, after, around, hz, h, hopened, ih, marks]
      · next hc =>
        have hc : ¬ q = c := fun e => hc e.symm
        simp [lexFrom_cons, after, around, hz, h, hc, ih, marks]
  simp [lex, Quoted.encode, lexFrom_cons, after, around, hopened, inside, marks]

/-! ## Parentheses -/

/-- Has the character no part in quoting, nesting, separating and commenting? -/
def Inert (c : Char) : Prop :=
  c ∉ ['\'', '"', '(', ')', ';', '-', '/']

instance : DecidablePred Inert := fun c =>
  inferInstanceAs (Decidable (c ∉ ['\'', '"', '(', ')', ';', '-', '/']))

lemma inert_of_all {cs : List Char} (h : cs.all (Inert ·) = true) : ∀ c ∈ cs, Inert c :=
  fun c hc => of_decide_eq_true (List.all_eq_true.1 h c hc)

/-- The depth of parentheses behind a text, if it never falls below zero. -/
def nesting : Nat → List Mark → Option Nat
  | depth, [] => some depth
  | depth, m :: ms =>
    if m = ⟨'(', .code⟩ then nesting (depth + 1) ms
    else if m = ⟨')', .code⟩ then
      match depth with
      | 0 => none
      | depth + 1 => nesting depth ms
    else nesting depth ms

/-- Is a text as deep at its end as at its start, and never less deep? -/
def Level (ms : List Mark) : Prop :=
  ∀ depth, nesting depth ms = some depth

lemma nesting_append (depth : Nat) (ms ns : List Mark) :
    nesting depth (ms ++ ns) = (nesting depth ms).bind (nesting · ns) := by
  induction ms generalizing depth with
  | nil => rfl
  | cons m ms ih =>
    simp only [List.cons_append, nesting]
    split
    · exact ih _
    · split
      · cases depth with
        | zero => rfl
        | succ depth => exact ih _
      · exact ih _

/-- What nests on its own nests at any depth. -/
lemma nesting_add {depth final : Nat} {ms : List Mark} (h : nesting depth ms = some final)
    (extra : Nat) : nesting (depth + extra) ms = some (final + extra) := by
  induction ms generalizing depth with
  | nil =>
    cases h
    rfl
  | cons m ms ih =>
    simp only [nesting] at h ⊢
    split
    · next hm =>
      rw [if_pos hm] at h
      rw [Nat.add_right_comm]
      exact ih h
    · next hm =>
      rw [if_neg hm] at h
      split
      · next hm =>
        rw [if_pos hm] at h
        cases depth with
        | zero => cases h
        | succ depth =>
          rw [Nat.add_right_comm]
          exact ih h
      · next hm =>
        rw [if_neg hm] at h
        exact ih h

lemma level_of_nesting_zero {ms : List Mark} (h : nesting 0 ms = some 0) : Level ms := by
  intro depth
  have hadd := nesting_add h depth
  rwa [Nat.zero_add] at hadd

lemma level_nil : Level [] :=
  fun _ => rfl

lemma Level.append {ms ns : List Mark} (hm : Level ms) (hn : Level ns) : Level (ms ++ ns) := by
  intro depth
  rw [nesting_append, hm depth]
  exact hn depth

/-- A text with nothing but inert characters in its code is level. -/
lemma level_of_inert {ms : List Mark} (h : ∀ m ∈ ms, m.zone = .code → Inert m.char) :
    Level ms := by
  intro depth
  induction ms with
  | nil => rfl
  | cons m ms ih =>
    obtain ⟨hm, hms⟩ := List.forall_mem_cons.1 h
    simp only [nesting]
    rw [if_neg, if_neg]
    · exact ih hms
    · rintro rfl
      exact absurd (hm rfl) (by decide)
    · rintro rfl
      exact absurd (hm rfl) (by decide)

/-! ## Separators and comments -/

/-- Do two characters in a row open a comment? -/
def OpensComment (m n : Mark) : Prop :=
  m = ⟨'-', .code⟩ ∧ n = ⟨'-', .code⟩ ∨ m = ⟨'/', .code⟩ ∧ n = ⟨'*', .code⟩

instance : DecidableRel OpensComment := fun m n =>
  inferInstanceAs (Decidable (m = ⟨'-', .code⟩ ∧ n = ⟨'-', .code⟩ ∨
    m = ⟨'/', .code⟩ ∧ n = ⟨'*', .code⟩))

/-- A text that ends no statement and opens no comment, not even together with what follows. -/
structure Calm (ms : List Mark) : Prop where
  noSeparator : ⟨';', .code⟩ ∉ ms
  noComment : ms.IsChain (¬ OpensComment · ·)
  quietEnd : ∀ m ∈ ms.getLast?, m ≠ ⟨'-', .code⟩ ∧ m ≠ ⟨'/', .code⟩

lemma calm_nil : Calm [] :=
  ⟨nofun, .nil, nofun⟩

lemma Calm.append {ms ns : List Mark} (hm : Calm ms) (hn : Calm ns) : Calm (ms ++ ns) where
  noSeparator h := (List.mem_append.1 h).elim hm.noSeparator hn.noSeparator
  noComment := by
    refine List.isChain_append.2 ⟨hm.noComment, hn.noComment, fun m hlast n _ hopens => ?_⟩
    have hquiet := hm.quietEnd m hlast
    rcases hopens with ⟨rfl, _⟩ | ⟨rfl, _⟩
    · exact hquiet.1 rfl
    · exact hquiet.2 rfl
  quietEnd m h := by
    rw [List.getLast?_append] at h
    cases hlast : ns.getLast? with
    | none =>
      rw [hlast] at h
      exact hm.quietEnd m h
    | some n =>
      rw [hlast] at h
      cases h
      exact hn.quietEnd m hlast

/-- A text with nothing but inert characters in its code is calm. -/
lemma calm_of_inert {ms : List Mark} (h : ∀ m ∈ ms, m.zone = .code → Inert m.char) : Calm ms := by
  have hne (c : Char) (hc : ¬ Inert c) : ∀ m ∈ ms, m ≠ ⟨c, .code⟩ := by
    rintro m hm rfl
    exact hc (h _ hm rfl)
  have hquiet : ∀ m ∈ ms, m ≠ ⟨'-', .code⟩ ∧ m ≠ ⟨'/', .code⟩ := fun m hm =>
    ⟨hne '-' (by decide) m hm, hne '/' (by decide) m hm⟩
  refine ⟨fun hm => hne ';' (by decide) _ hm rfl, ?_,
    fun m hlast => hquiet m (List.mem_of_getLast? hlast)⟩
  refine List.Pairwise.isChain (List.pairwise_of_forall_mem_list fun m hm n _ hopens => ?_)
  rcases hopens with ⟨rfl, _⟩ | ⟨rfl, _⟩
  · exact (hquiet _ hm).1 rfl
  · exact (hquiet _ hm).2 rfl

/-- A calm text stays calm behind a character that is no separator and opens no comment with it. -/
lemma Calm.cons {m n : Mark} {ms : List Mark} (h : Calm (n :: ms)) (hm : m ≠ ⟨';', .code⟩)
    (hn : ¬ OpensComment m n) : Calm (m :: n :: ms) where
  noSeparator hmem := (List.mem_cons.1 hmem).elim (fun e => hm e.symm) h.noSeparator
  noComment := List.isChain_cons_cons.2 ⟨hn, h.noComment⟩
  quietEnd := by
    rw [List.getLast?_cons_cons]
    exact h.quietEnd

/-! ## Texts in any place -/

/-- A text with marks of its own, which stay calm and level in any place. -/
structure Lexes (cs : List Char) (ms : List Mark) : Prop where
  lexed : lex cs = some ms
  calm : Calm ms
  level : Level ms

lemma Lexes.append {cs ds : List Char} {ms ns : List Mark} (hm : Lexes cs ms) (hn : Lexes ds ns) :
    Lexes (cs ++ ds) (ms ++ ns) :=
  ⟨lex_append hm.lexed hn.lexed, hm.calm.append hn.calm, hm.level.append hn.level⟩

lemma lexes_of_inert {cs : List Char} {ms : List Mark} (hlex : lex cs = some ms)
    (h : ∀ m ∈ ms, m.zone = .code → Inert m.char) : Lexes cs ms :=
  ⟨hlex, calm_of_inert h, level_of_inert h⟩

/-- A text of inert characters is code. -/
lemma lexes_inert {cs : List Char} (h : ∀ c ∈ cs, Inert c) : Lexes cs (Zone.code.marks cs) := by
  refine lexes_of_inert (lex_of_opened fun c hc => ?_) fun m hm _ => ?_
  · have := h c hc
    simp_all [Inert, opened]
  · obtain ⟨c, hc, rfl⟩ := List.mem_map.1 hm
    exact h c hc

/-- A quoted text is lexed as its zone. -/
lemma lexes_encode {z : Zone} {q : Char} (h : z.quote? = some q) (s : String) :
    Lexes (Quoted.encode q s).toList (z.marks (Quoted.encode q s).toList) := by
  refine lexes_of_inert (lex_encode h s) fun m hm hcode => ?_
  obtain ⟨c, _, rfl⟩ := List.mem_map.1 hm
  exact absurd hcode (ne_code_of_quote? h)

end PipelineSql
