import PipelineSql.Proofs.Lexing

/-!
# Numerals

The numbers of a statement are written as `-?[0-9]+(\.[0-9]+)?(e-?[0-9]+)?`, or by name where they are
not finite. Such a text has no quotes, no brackets and no comments, whatever stands around it.
-/

namespace PipelineSql

/-- Digits, at least one. -/
structure Digits (cs : List Char) : Prop where
  ne_nil : cs ≠ []
  isDigit : ∀ c ∈ cs, c.isDigit = true

/-- A minus, or none. -/
def Minus (cs : List Char) : Prop :=
  cs = [] ∨ cs = ['-']

/-- A point with digits, or nothing. -/
def Fraction (cs : List Char) : Prop :=
  cs = [] ∨ ∃ ds, Digits ds ∧ cs = '.' :: ds

/-- An `e` with a number, or nothing. -/
def Exponent (cs : List Char) : Prop :=
  cs = [] ∨ ∃ sign ds, Minus sign ∧ Digits ds ∧ cs = 'e' :: (sign ++ ds)

/-- The names of the doubles that are not finite. -/
def doubleNames : List String :=
  ["BINARY_DOUBLE_INFINITY", "BINARY_DOUBLE_NAN"]

/-- A number as it is written. -/
inductive Numeral : List Char → Prop where
  | finite {sign whole fraction exponent} : Minus sign → Digits whole → Fraction fraction →
    Exponent exponent → Numeral (sign ++ whole ++ fraction ++ exponent)
  | named {sign s} : Minus sign → s ∈ doubleNames → Numeral (sign ++ s.toList)

/-! ## How numbers are written -/

namespace Digits

lemma singleton {c : Char} (h : c.isDigit = true) : Digits [c] :=
  ⟨List.cons_ne_nil _ _, by simpa using h⟩

/-- More digits behind digits. -/
lemma append {cs ds : List Char} (hc : Digits cs) (hd : ∀ d ∈ ds, d.isDigit = true) :
    Digits (cs ++ ds) where
  ne_nil := List.append_ne_nil_of_left_ne_nil hc.ne_nil ds
  isDigit := List.forall_mem_append.2 ⟨hc.isDigit, hd⟩

lemma repr (n : Nat) : Digits (Nat.repr n).toList := by
  rw [Nat.toList_repr]
  exact ⟨Nat.toDigits_ne_nil, fun _ => Nat.isDigit_of_mem_toDigits (by decide) (by decide)⟩

end Digits

/-- A placeholder is a number behind a colon. -/
lemma toList_placeholder (n : Nat) : (placeholder n).toList = ':' :: (Nat.repr n).toList := by
  change (":" ++ Nat.repr n).toList = _
  rw [String.toList_append]
  rfl

lemma isDigit_zeros (n : Nat) : ∀ c ∈ (Decimal.zeros n).toList, c.isDigit = true := by
  intro c hc
  rw [Decimal.zeros, String.toList_ofList] at hc
  obtain rfl := List.eq_of_mem_replicate hc
  rfl

/-- An integer is digits behind a sign. -/
lemma toList_toString_int (n : Int) :
    ∃ sign ds, Minus sign ∧ Digits ds ∧ (toString n).toList = sign ++ ds := by
  cases n with
  | ofNat n => exact ⟨[], _, .inl rfl, .repr n, rfl⟩
  | negSucc n =>
    refine ⟨['-'], _, .inr rfl, .repr (n + 1), ?_⟩
    change ("-" ++ Nat.repr (n + 1)).toList = _
    rw [String.toList_append]
    rfl

lemma numeral_int (n : Int) : Numeral (toString n).toList := by
  obtain ⟨sign, ds, hsign, hds, h⟩ := toList_toString_int n
  have := Numeral.finite hsign hds (.inl rfl) (.inl rfl)
  rwa [List.append_nil, List.append_nil, ← h] at this

/-- A number without its sign. -/
def Unsigned (cs : List Char) : Prop :=
  ∃ whole fraction exponent, Digits whole ∧ Fraction fraction ∧ Exponent exponent ∧
    cs = whole ++ fraction ++ exponent

lemma Unsigned.numeral {sign cs : List Char} (hs : Minus sign) (h : Unsigned cs) :
    Numeral (sign ++ cs) := by
  obtain ⟨whole, fraction, exponent, hw, hf, he, rfl⟩ := h
  rw [← List.append_assoc, ← List.append_assoc]
  exact .finite hs hw hf he

/-- Digits with a point among or around them. -/
lemma unsigned_point {whole fraction : List Char} (hw : Digits whole) (hf : Digits fraction) :
    Unsigned (whole ++ '.' :: fraction) :=
  ⟨whole, _, [], hw, .inr ⟨fraction, hf, rfl⟩, .inl rfl, (List.append_nil _).symm⟩

/-- Digits in scientific notation, with a point behind the first if there are more. -/
lemma unsigned_scientific {digits : List Char} (h : Digits digits) (exponent : Int) :
    Unsigned ((match digits with
      | first :: rest@(_ :: _) => String.ofList (first :: '.' :: rest)
      | cs => String.ofList cs).toList ++ 'e' :: (toString exponent).toList) := by
  obtain ⟨sign, ds, hsign, hds, he⟩ := toList_toString_int exponent
  have hexponent : Exponent ('e' :: (toString exponent).toList) :=
    .inr ⟨sign, ds, hsign, hds, by rw [he]⟩
  split
  · next first second rest =>
    obtain ⟨hfirst, hrest⟩ := List.forall_mem_cons.1 h.isDigit
    refine ⟨[first], '.' :: second :: rest, _, .singleton hfirst, .inr ⟨_, ⟨?_, hrest⟩, rfl⟩,
      hexponent, ?_⟩
    · exact List.cons_ne_nil _ _
    · rw [String.toList_ofList]
      rfl
  · refine ⟨digits, [], _, h, .inl rfl, hexponent, ?_⟩
    rw [String.toList_ofList, List.append_nil]

lemma numeral_toText (d : Decimal) : Numeral (d.toText .bare).toList := by
  obtain ⟨negative, n, exponent⟩ := d
  have hdigits := Digits.repr n
  have hzero : Digits ['0'] := .singleton rfl
  unfold Decimal.toText
  dsimp only
  generalize hbody : (ite (n = 0) _ _ : String) = body
  have hunsigned : Unsigned body.toList := by
    subst hbody
    split
    · exact unsigned_point hzero hzero
    split
    · rw [String.toList_append, String.toList_append]
      exact unsigned_point (hdigits.append (isDigit_zeros _)) hzero
    split
    · next hlow hpoint =>
      -- the point falls inside the digits, since the exponent is negative
      rw [← String.length_toList] at hlow hpoint ⊢
      have hwhole : Digits ((Nat.repr n).toList.take
          ((Nat.repr n).toList.length + exponent).toNat) := by
        refine ⟨?_, fun c hc => hdigits.isDigit c (List.mem_of_mem_take hc)⟩
        rw [ne_eq, List.take_eq_nil_iff, not_or]
        exact ⟨by omega, hdigits.ne_nil⟩
      have hfraction : Digits ((Nat.repr n).toList.drop
          ((Nat.repr n).toList.length + exponent).toNat) := by
        refine ⟨?_, fun c hc => hdigits.isDigit c (List.mem_of_mem_drop hc)⟩
        rw [ne_eq, List.drop_eq_nil_iff]
        omega
      simp only [String.toList_append, String.toList_ofList, List.append_assoc]
      exact unsigned_point hwhole hfraction
    split
    · have hfraction (k : Nat) : Digits ((Decimal.zeros k).toList ++ (Nat.repr n).toList) :=
        ⟨List.append_ne_nil_of_right_ne_nil _ hdigits.ne_nil,
          List.forall_mem_append.2 ⟨isDigit_zeros k, hdigits.isDigit⟩⟩
      rw [String.toList_append, String.toList_append, List.append_assoc]
      exact unsigned_point hzero (hfraction _)
    · rw [if_neg (by simp), String.toList_append, String.toList_append, List.append_assoc]
      exact unsigned_scientific hdigits _
  cases negative with
  | false => exact hunsigned.numeral (.inl rfl)
  | true =>
    rw [if_pos rfl, String.toList_append]
    exact hunsigned.numeral (.inr rfl)

lemma numeral_floatText (x : Float) : Numeral (floatText x).toList := by
  unfold floatText
  split
  · exact numeral_toText _
  · split
    · exact .named (s := "BINARY_DOUBLE_INFINITY") (.inl rfl) List.mem_cons_self
    · split
      · refine Numeral.named (s := "BINARY_DOUBLE_INFINITY") (.inr rfl) List.mem_cons_self
      · exact .named (s := "BINARY_DOUBLE_NAN") (.inl rfl) (List.mem_cons_of_mem _ List.mem_cons_self)

/-! ## How numerals are lexed -/

lemma inert_of_isWordChar {c : Char} (h : isWordChar c = true) : Inert c := by
  intro hmem
  simp only [List.mem_cons, List.not_mem_nil, or_false] at hmem
  rcases hmem with rfl | rfl | rfl | rfl | rfl | rfl | rfl <;> cases h

lemma inert_of_isDigit {c : Char} (h : c.isDigit = true) : Inert c :=
  inert_of_isWordChar (by simp [isWordChar, Char.isAlphanum, h])

/-- A minus in front of inert characters opens no comment. -/
lemma lexes_signed {sign cs : List Char} (hs : Minus sign) (hne : cs ≠ [])
    (h : ∀ c ∈ cs, Inert c) : Lexes (sign ++ cs) (Zone.code.marks (sign ++ cs)) := by
  have hcs := lexes_inert h
  rcases hs with rfl | rfl
  · exact hcs
  · obtain ⟨c, cs, rfl⟩ := List.exists_cons_of_ne_nil hne
    have hc : c ≠ '-' := by
      rintro rfl
      exact absurd (h _ List.mem_cons_self) (by decide)
    have hlex : lex ['-'] = some [⟨'-', .code⟩] := rfl
    have hlevel : Level [⟨'-', .code⟩] := fun _ => rfl
    refine ⟨lex_append hlex hcs.lexed, hcs.calm.cons (by decide) ?_, hlevel.append hcs.level⟩
    rintro (⟨_, hn⟩ | ⟨hm, _⟩)
    · exact hc (congrArg Mark.char hn)
    · cases hm

lemma Fraction.inert {cs : List Char} (h : Fraction cs) : ∀ c ∈ cs, Inert c := by
  rcases h with rfl | ⟨ds, hds, rfl⟩
  · exact nofun
  · exact List.forall_mem_cons.2 ⟨by decide, fun c hc => inert_of_isDigit (hds.isDigit c hc)⟩

lemma Exponent.lexes {cs : List Char} (h : Exponent cs) : Lexes cs (Zone.code.marks cs) := by
  rcases h with rfl | ⟨sign, ds, hs, hds, rfl⟩
  · exact lexes_inert nofun
  · have he : Lexes ['e'] (Zone.code.marks ['e']) := lexes_inert (inert_of_all (by decide))
    exact he.append (lexes_signed hs hds.ne_nil fun c hc => inert_of_isDigit (hds.isDigit c hc))

lemma Numeral.lexes {cs : List Char} (h : Numeral cs) : Lexes cs (Zone.code.marks cs) := by
  cases h with
  | finite hs hw hf he =>
    have hwhole := lexes_signed hs hw.ne_nil fun c hc => inert_of_isDigit (hw.isDigit c hc)
    rw [Zone.marks_append, Zone.marks_append]
    exact (hwhole.append (lexes_inert hf.inert)).append he.lexes
  | @named sign s hs hmem =>
    simp only [doubleNames, List.mem_cons, List.not_mem_nil, or_false] at hmem
    rcases hmem with rfl | rfl
    · exact lexes_signed hs (by simp) (inert_of_all (by decide))
    · exact lexes_signed hs (by simp) (inert_of_all (by decide))

end PipelineSql
