import Mathlib.Data.List.TakeDrop
import Mathlib.Tactic.Lemma
import PipelineSql.Json.Reader
import PipelineSql.Proofs.Lexing

/-!
# Literals written in place

A value that is not bound is written into the statement: a string between single quotes, and an
array as the JSON text of its items between single quotes. So an array passes through two ways of
quoting, one inside the other.

Main result: both can be undone. What stands between the quotes, with doubled quotes read as one, is
the string, or a JSON text that reads as the array itself. Names in double quotes are read alike.
-/

namespace PipelineSql

/-! ## Quoted texts -/

namespace Quoted

/-- The characters that doubled quotes stand for; none if a quote stands alone. -/
def undouble? (q : Char) : List Char → Option (List Char)
  | [] => some []
  | [c] => if c = q then none else some [c]
  | c :: c' :: cs =>
    if c = q then if c' = q then (undouble? q cs).map (q :: ·) else none
    else (undouble? q (c' :: cs)).map (c :: ·)

/-- The text between two quotes `q`. -/
def decode? (q : Char) (s : String) : Option String :=
  match s.toList with
  | [] => none
  | c :: cs =>
    if c = q ∧ cs.getLast? = some q then (undouble? q cs.dropLast).map String.ofList else none

variable {q : Char}

/-- A character other than the quote stands for itself. -/
lemma undouble?_cons {c : Char} (h : c ≠ q) (cs : List Char) :
    undouble? q (c :: cs) = (undouble? q cs).map (c :: ·) := by
  cases cs with
  | nil => simp [undouble?, h]
  | cons c' cs => rw [undouble?, if_neg h]

lemma undouble?_double (q : Char) (cs : List Char) : undouble? q (double q cs) = some cs := by
  induction cs with
  | nil => rfl
  | cons c cs ih =>
    by_cases h : c = q
    · subst h
      simp [double, undouble?, ih]
    · rw [double, if_neg h, undouble?_cons h, ih]
      rfl

/-- Only the doubled text stands for a text. -/
lemma eq_double_of_undouble? {cs ds : List Char} (h : undouble? q cs = some ds) :
    cs = double q ds := by
  induction cs using undouble?.induct q generalizing ds with
  | case1 =>
    cases h
    rfl
  | case2 => simp [undouble?] at h
  | case3 c hc =>
    rw [undouble?, if_neg hc] at h
    cases h
    simp [double, hc]
  | case4 cs ih =>
    rw [undouble?, if_pos rfl, if_pos rfl] at h
    obtain ⟨es, hes, rfl⟩ := Option.map_eq_some_iff.1 h
    simp [double, ih hes]
  | case5 c' cs hc' =>
    rw [undouble?, if_pos rfl, if_neg hc'] at h
    cases h
  | case6 c c' cs hc ih =>
    rw [undouble?, if_neg hc] at h
    obtain ⟨es, hes, rfl⟩ := Option.map_eq_some_iff.1 h
    rw [double, if_neg hc, ih hes]

/-- A text is read as another exactly if it is that text in quotes. -/
lemma decode?_eq_some_iff {s t : String} : decode? q t = some s ↔ t = encode q s := by
  constructor
  · intro h
    unfold decode? at h
    split at h
    · cases h
    · next c cs ht =>
      split at h
      · next hq =>
        obtain ⟨rfl, hlast⟩ := hq
        obtain ⟨inner, rfl⟩ := List.getLast?_eq_some_iff.1 hlast
        rw [List.dropLast_concat] at h
        obtain ⟨ds, hds, rfl⟩ := Option.map_eq_some_iff.1 h
        rw [encode, String.toList_ofList, ← eq_double_of_undouble? hds, ← ht, String.ofList_toList]
      · cases h
  · rintro rfl
    have hlast : (double q s.toList ++ [q]).getLast? = some q := List.getLast?_concat
    simp only [decode?, encode, String.toList_ofList, hlast, and_self, if_true,
      List.dropLast_concat, undouble?_double, Option.map_some, String.ofList_toList]

end Quoted

namespace Json

/-! ## Strings -/

lemma hexValue?_hexDigit (n : Nat) : hexValue? (hexDigit n) = some (n % 16) := by
  have h : ∀ d, d < 16 → hexValue? (Nat.digitChar d) = some d := by decide
  exact h _ (Nat.mod_lt n (by decide))

/-- The escape of a control character. -/
lemma unicode?_control {c : Char} (h : c.toNat < 32) (cs : List Char) :
    unicode? ('0' :: '0' :: hexDigit (c.toNat / 16) :: hexDigit c.toNat :: cs) = some (c, cs) := by
  have hzero : hexValue? '0' = some 0 := by decide
  have hhex : hex4? ('0' :: '0' :: hexDigit (c.toNat / 16) :: hexDigit c.toNat :: cs) =
      some (c.toNat, cs) := by
    have hn : c.toNat / 16 % 16 * 16 + c.toNat % 16 = c.toNat := by omega
    simp [hex4?, hzero, hexValue?_hexDigit, hn]
  simp only [unicode?, hhex, Option.bind_eq_bind, Option.bind_some]
  rw [if_neg (by omega), if_neg (by omega), Char.ofNat_toNat]

/-- Each character is read back from its escape in one step. -/
lemma readChars?_escapeChar (fuel : Nat) (done : List Char) (c : Char) (cs : List Char) :
    readChars? (fuel + 1) done (escapeChar c ++ cs) = readChars? fuel (c :: done) cs := by
  unfold escapeChar
  split
  · next h => subst h; simp [readChars?, shortEscape?]
  split
  · next h => subst h; simp [readChars?, shortEscape?]
  split
  · next h => subst h; simp [readChars?, shortEscape?]
  split
  · next h => subst h; simp [readChars?, shortEscape?]
  split
  · next h => subst h; simp [readChars?, shortEscape?]
  split
  · next h =>
    obtain rfl : c = Char.ofNat 8 := by rw [← h, Char.ofNat_toNat]
    simp [readChars?, shortEscape?]
  split
  · next h =>
    obtain rfl : c = Char.ofNat 12 := by rw [← h, Char.ofNat_toNat]
    simp [readChars?, shortEscape?]
  split
  · next h => simp [readChars?, unicode?_control h]
  · next hquote hslash _ _ _ _ _ hcontrol => simp [readChars?, hquote, hslash, hcontrol]

lemma readChars?_escaped (s : List Char) {fuel : Nat} (h : s.length < fuel)
    (done rest : List Char) :
    readChars? fuel done (s.flatMap escapeChar ++ '"' :: rest) =
      some (done.reverse ++ s, rest) := by
  induction s generalizing fuel done with
  | nil =>
    obtain ⟨fuel, rfl⟩ := Nat.exists_eq_add_of_lt h
    simp [readChars?]
  | cons c s ih =>
    rw [List.length_cons] at h
    obtain ⟨fuel, rfl⟩ : ∃ k, fuel = k + 1 := ⟨fuel - 1, by omega⟩
    rw [List.flatMap_cons, List.append_assoc, readChars?_escapeChar, ih (by omega),
      List.reverse_cons, List.append_assoc]
    rfl

lemma length_le_escaped (s : List Char) : s.length ≤ (s.flatMap escapeChar).length := by
  have hone (c : Char) : 1 ≤ (escapeChar c).length := by
    unfold escapeChar
    repeat' split
    all_goals simp
  induction s with
  | nil => exact Nat.le_refl _
  | cons c s ih =>
    have := hone c
    simp only [List.flatMap_cons, List.length_append, List.length_cons]
    omega

/-- A quoted string is read up to its closing quote. -/
lemma readString?_quote (s : String) (rest : List Char) :
    readString? (s.toList.flatMap escapeChar ++ '"' :: rest) = some (s, rest) := by
  have hlength := length_le_escaped s.toList
  have hfuel : s.toList.length < (s.toList.flatMap escapeChar ++ '"' :: rest).length + 1 := by
    rw [List.length_append]
    omega
  rw [readString?, readChars?_escaped s.toList hfuel]
  simp

/-! ## Integers -/

/-- Does no character at the head of the text go on a number? -/
def EndsNumber (rest : List Char) : Prop :=
  ∀ c ∈ rest.head?, c.isDigit = false ∧ c ≠ '.' ∧ c ≠ 'e' ∧ c ≠ 'E'

lemma spanDigits_append {ds rest : List Char} (hd : ∀ c ∈ ds, c.isDigit = true)
    (hr : EndsNumber rest) : spanDigits (ds ++ rest) = (ds, rest) := by
  have hspan := takeWhile_append_head hd fun c hc => (hr c hc).1
  rw [spanDigits, List.span_eq_takeWhile_dropWhile, hspan.1, hspan.2]

/-- The digits of a number have no zero in front of others. -/
lemma isWhole_toDigits (n : Nat) : isWhole (Nat.toDigits 10 n) = true := by
  have hhead (n : Nat) (hn : 0 < n) : (Nat.toDigits 10 n).head? ≠ some '0' := by
    induction n using Nat.strongRecOn with
    | ind n ih =>
      by_cases hlt : n < 10
      · rw [Nat.toDigits_of_lt_base hlt, List.head?_cons]
        have hdigit : ∀ d, d < 10 → 0 < d → some (Nat.digitChar d) ≠ some '0' := by decide
        exact hdigit n hlt hn
      · have hrest := ih (n / 10) (by omega) (by omega)
        obtain ⟨d, ds, hds⟩ :=
          List.exists_cons_of_ne_nil (Nat.toDigits_ne_nil (n := n / 10) (b := 10))
        rw [Nat.toDigits_of_base_le (by decide) (by omega), hds]
        rwa [hds] at hrest
  rcases Nat.eq_zero_or_pos n with rfl | hn
  · rfl
  · have hne := hhead n hn
    cases hds : Nat.toDigits 10 n with
    | nil => exact absurd hds Nat.toDigits_ne_nil
    | cons d ds =>
      rw [hds, List.head?_cons, ne_eq, Option.some.injEq] at hne
      cases ds with
      | nil =>
        unfold isWhole
        split
        · next h => cases h
        · rfl
        · next h => cases h; simpa using hne
      | cons d' ds => simpa [isWhole] using hne

lemma readFraction?_ends {rest : List Char} (h : EndsNumber rest) :
    readFraction? rest = some ([], rest) := by
  unfold readFraction?
  split
  · exact absurd rfl (h '.' rfl).2.1
  · rfl

lemma readExponent?_ends {rest : List Char} (h : EndsNumber rest) :
    readExponent? rest = some (none, rest) := by
  cases rest with
  | nil => rfl
  | cons c cs =>
    obtain ⟨-, -, he, hE⟩ := h c rfl
    simp [readExponent?, he, hE]

/-- An integer is read back from its digits and its sign. -/
lemma readNumber?_toString (n : Int) {rest : List Char} (h : EndsNumber rest) :
    readNumber? ((toString n).toList ++ rest) = some (.int n, rest) := by
  have hdigits (k : Nat) : ∀ c ∈ Nat.toDigits 10 k, c.isDigit = true :=
    fun c => Nat.isDigit_of_mem_toDigits (by decide) (by decide)
  have hvalue (k : Nat) : natOfDigits (Nat.toDigits 10 k) = k := Nat.ofDigitChars_ten_toDigits
  have hspan (k : Nat) := spanDigits_append (hdigits k) h
  have hwhole (k : Nat) : (guard (isWhole (Nat.toDigits 10 k) = true) : Option Unit) = some () :=
    if_pos (isWhole_toDigits k)
  cases n with
  | ofNat k =>
    have htext : (toString (Int.ofNat k)).toList = Nat.toDigits 10 k := Nat.toList_repr
    rw [htext]
    unfold readNumber?
    split
    next negative cs hsign =>
    -- no digit is a minus
    have hplain : (negative, cs) = (false, Nat.toDigits 10 k ++ rest) := by
      rw [← hsign]
      split
      · next heq =>
        obtain ⟨d, ds, hds⟩ := List.exists_cons_of_ne_nil (Nat.toDigits_ne_nil (n := k) (b := 10))
        have hd := hdigits k d (by simp [hds])
        rw [hds] at heq
        cases heq
        cases hd
      · rfl
    cases hplain
    dsimp only
    rw [hspan]
    dsimp only
    rw [hwhole]
    simp [readFraction?_ends h, readExponent?_ends h, hvalue]
  | negSucc k =>
    have htext : (toString (Int.negSucc k)).toList = '-' :: Nat.toDigits 10 (k + 1) := by
      change ("-" ++ Nat.repr (k + 1)).toList = _
      rw [String.toList_append, Nat.toList_repr]
      rfl
    rw [htext]
    unfold readNumber?
    split
    next negative cs hsign =>
    have hminus : (negative, cs) = (true, Nat.toDigits 10 (k + 1) ++ rest) := by
      rw [← hsign]
      rfl
    cases hminus
    dsimp only
    rw [hspan]
    dsimp only
    rw [hwhole]
    simp [readFraction?_ends h, readExponent?_ends h, hvalue, Int.negSucc_eq]

/-! ## Values -/

mutual

/-- Is the value made of null, booleans, integers and strings, in arrays of any depth? -/
def isExact : Json → Bool
  | .null | .bool _ | .num (.int _) | .str _ => true
  | .num (.float _) | .obj _ => false
  | .arr items => allExact items

/-- Are all items so? -/
def allExact : List Json → Bool
  | [] => true
  | j :: js => isExact j && allExact js

end

/-- The text of a value starts with a character that is no blank and closes no array. -/
def OpensValue (cs : List Char) : Prop :=
  ∃ c rest, cs = c :: rest ∧ isBlank c = false ∧ c ≠ ']'

lemma OpensValue.append {cs : List Char} (h : OpensValue cs) (ds : List Char) :
    OpensValue (cs ++ ds) := by
  obtain ⟨c, rest, rfl, hc⟩ := h
  exact ⟨c, rest ++ ds, rfl, hc⟩

lemma OpensValue.skipBlanks {cs : List Char} (h : OpensValue cs) : Json.skipBlanks cs = cs := by
  obtain ⟨c, rest, rfl, hc, -⟩ := h
  simp [Json.skipBlanks, hc]

/-- The head of an integer is a digit or a minus. -/
lemma toList_toString_cons (n : Int) :
    ∃ c cs, (toString n).toList = c :: cs ∧ (c.isDigit = true ∨ c = '-') := by
  cases n with
  | ofNat k =>
    obtain ⟨d, ds, hds⟩ := List.exists_cons_of_ne_nil (Nat.toDigits_ne_nil (n := k) (b := 10))
    refine ⟨d, ds, hds ▸ Nat.toList_repr, .inl ?_⟩
    exact Nat.isDigit_of_mem_toDigits (b := 10) (n := k) (by decide) (by decide) (by simp [hds])
  | negSucc k => exact ⟨'-', _, String.toList_append, .inr rfl⟩

lemma toList_print_str (s : String) :
    (print (.str s)).toList = '"' :: (s.toList.flatMap escapeChar ++ ['"']) := by
  simp [print, quote, String.toList_append]

lemma toList_print_arr (items : List Json) :
    (print (.arr items)).toList = '[' :: ((printItems items).toList ++ [']']) := by
  simp [print, String.toList_append]

lemma opensValue_print {j : Json} (h : j.isExact = true) : OpensValue j.print.toList := by
  cases j with
  | null => exact ⟨_, _, rfl, rfl, by decide⟩
  | bool b => cases b <;> exact ⟨_, _, rfl, rfl, by decide⟩
  | num n =>
    cases n with
    | float x => cases h
    | int n =>
      obtain ⟨c, cs, hcs, hc⟩ := toList_toString_cons n
      refine ⟨c, cs, hcs, ?_⟩
      rcases hc with hc | rfl
      · have hne {d : Char} (hd : d.isDigit = false) : c ≠ d := by
          rintro rfl
          rw [hd] at hc
          cases hc
        refine ⟨?_, hne rfl⟩
        simp [isBlank, hne (d := ' ') rfl, hne (d := '\n') rfl, hne (d := '\r') rfl,
          hne (d := '\t') rfl]
      · exact ⟨rfl, by decide⟩
  | str s => exact ⟨_, _, toList_print_str s, rfl, by decide⟩
  | arr items => exact ⟨_, _, toList_print_arr items, rfl, by decide⟩
  | obj entries => cases h

/-- The head of an integer is read as a number. -/
lemma readValue?_int (n : Int) (depth : Nat) {rest : List Char} (h : EndsNumber rest) :
    readValue? (depth + 1) ((toString n).toList ++ rest) = some (.num (.int n), rest) := by
  have hread := readNumber?_toString n h
  have hopens := (opensValue_print (j := .num (.int n)) rfl).append rest
  have hskip : skipBlanks ((toString n).toList ++ rest) = (toString n).toList ++ rest :=
    hopens.skipBlanks
  obtain ⟨c, cs, hcs, hc⟩ := toList_toString_cons n
  have hne {d : Char} (hd : d.isDigit = false ∧ d ≠ '-') : c ≠ d := by
    rintro rfl
    rcases hc with hc | rfl
    · rw [hd.1] at hc
      cases hc
    · exact hd.2 rfl
  rw [hcs, List.cons_append] at hskip hread ⊢
  rw [readValue?, hskip]
  split
  · next heq => cases heq
  · next heq => exact absurd (List.cons.inj heq).1 (hne (by decide))
  · next heq => exact absurd (List.cons.inj heq).1 (hne (by decide))
  · next heq => exact absurd (List.cons.inj heq).1 (hne (by decide))
  · next heq => exact absurd (List.cons.inj heq).1 (hne (by decide))
  · next heq => exact absurd (List.cons.inj heq).1 (hne (by decide))
  · next heq => exact absurd (List.cons.inj heq).1 (hne (by decide))
  · rw [hread]
    rfl

/-- What follows an item ends its number. -/
lemma endsNumber_nil : EndsNumber [] := by
  rintro _ ⟨⟩

lemma endsNumber_cons {c : Char} (h : c = ',' ∨ c = ']') (rest : List Char) :
    EndsNumber (c :: rest) := by
  rintro _ ⟨⟩
  rcases h with rfl | rfl <;> decide

lemma toList_printItems_cons (x y : Json) (rest : List Json) :
    (printItems (x :: y :: rest)).toList =
      x.print.toList ++ ',' :: (printItems (y :: rest)).toList := by
  simp [printItems, String.toList_append]

lemma opensValue_printItems {x : Json} {xs : List Json} (h : allExact (x :: xs) = true) :
    OpensValue (printItems (x :: xs)).toList := by
  rw [allExact, Bool.and_eq_true_iff] at h
  have hopens := opensValue_print h.1
  cases xs with
  | nil => exact hopens
  | cons y ys =>
    rw [toList_printItems_cons]
    exact hopens.append _

/-- An array is read from its items, whose text does not close it at once. -/
lemma readValue?_arr {depth : Nat} {cs rest : List Char} {items : List Json} (h : OpensValue cs)
    (hitems : readItems? depth [] cs = some (items, rest)) :
    readValue? (depth + 1) ('[' :: cs) = some (.arr items, rest) := by
  have hskip := h.skipBlanks
  obtain ⟨c, cs, rfl, -, hclose⟩ := h
  have hopen : skipBlanks ('[' :: c :: cs) = '[' :: c :: cs := rfl
  simp [readValue?, hopen, hskip, hclose, hitems]

mutual

/-- A value is read back from its text, if the depth is not less than the length of the text. -/
lemma readValue?_print : ∀ (j : Json) (depth : Nat) {rest : List Char}, j.isExact = true →
    j.print.toList.length < depth → EndsNumber rest →
    readValue? depth (j.print.toList ++ rest) = some (j, rest)
  | _, 0, _, _, hdepth, _ => absurd hdepth (Nat.not_lt_zero _)
  | .null, _ + 1, _, _, _, _ => rfl
  | .bool true, _ + 1, _, _, _, _ => rfl
  | .bool false, _ + 1, _, _, _, _ => rfl
  | .num (.int n), depth + 1, _, _, _, hrest => readValue?_int n depth hrest
  | .str s, depth + 1, rest, _, _, _ => by
    rw [toList_print_str, List.cons_append, List.append_assoc, List.singleton_append, readValue?]
    simp [skipBlanks, isBlank, readString?_quote]
  | .arr [], _ + 1, _, _, _, _ => rfl
  | .arr (x :: xs), depth + 1, rest, h, hdepth, _ => by
    have hitems : allExact (x :: xs) = true := by rwa [isExact] at h
    have hopens := (opensValue_printItems hitems).append (']' :: rest)
    rw [toList_print_arr, List.length_cons, List.length_append, List.length_singleton] at hdepth
    have hread := readItems?_print x xs depth [] rest hitems (by omega)
    rw [toList_print_arr, List.cons_append, List.append_assoc, List.singleton_append]
    exact readValue?_arr hopens hread

/-- The items of an array are read back. -/
lemma readItems?_print : ∀ (x : Json) (xs : List Json) (depth : Nat) (done : List Json)
    (rest : List Char), allExact (x :: xs) = true →
    (printItems (x :: xs)).toList.length + 1 < depth →
    readItems? depth done ((printItems (x :: xs)).toList ++ ']' :: rest) =
      some (done.reverse ++ x :: xs, rest)
  | _, _, 0, _, _, _, hdepth => absurd hdepth (Nat.not_lt_zero _)
  | x, [], depth + 1, done, rest, h, hdepth => by
    rw [allExact, Bool.and_eq_true_iff] at h
    have hread := readValue?_print x depth h.1 (by rw [printItems] at hdepth; omega)
      (endsNumber_cons (.inr rfl) rest)
    rw [printItems, readItems?, hread]
    simp [skipBlanks, isBlank]
  | x, y :: ys, depth + 1, done, rest, h, hdepth => by
    rw [allExact, Bool.and_eq_true_iff] at h
    rw [toList_printItems_cons, List.length_append, List.length_cons] at hdepth
    have hread := readValue?_print x depth h.1 (by omega)
      (endsNumber_cons (.inl rfl) ((printItems (y :: ys)).toList ++ ']' :: rest))
    obtain ⟨c, cs, hcs, -⟩ := opensValue_print h.1
    have hlength : 0 < x.print.toList.length := by simp [hcs]
    have hrest := readItems?_print y ys depth (x :: done) rest h.2 (by omega)
    rw [toList_printItems_cons, List.append_assoc, List.cons_append, readItems?, hread]
    simp [skipBlanks, isBlank, hrest]

end

lemma parse?_print {j : Json} (h : j.isExact = true) : parse? j.print = some j := by
  have hread := readValue?_print j (j.print.toList.length + 1) h (Nat.lt_succ_self _) endsNumber_nil
  rw [List.append_nil] at hread
  simp [parse?, hread, skipBlanks]

end Json

/-! ## Literals -/

namespace Literal

mutual

/-- Is the literal made of null, booleans, 64-bit integers and strings, in arrays of any depth? -/
def isExact : Literal → Bool
  | .null | .bool _ | .string _ => true
  | .int n => isInt64 n
  | .double _ => false
  | .array items => allExact items

/-- Are all items so? -/
def allExact : List Literal → Bool
  | [] => true
  | l :: ls => isExact l && allExact ls

end

mutual

lemma isExact_toJson : ∀ l : Literal, l.isExact = true → l.toJson.isExact = true
  | .null, _ | .bool _, _ | .int _, _ | .string _, _ => rfl
  | .double _, h => absurd h (by simp [isExact])
  | .array items, h => by
    rw [isExact] at h
    rw [toJson, Json.isExact]
    exact allExact_itemsToJson items h

lemma allExact_itemsToJson : ∀ ls : List Literal, allExact ls = true →
    Json.allExact (itemsToJson ls) = true
  | [], _ => rfl
  | l :: ls, h => by
    rw [allExact, Bool.and_eq_true_iff] at h
    rw [itemsToJson, Json.allExact, Bool.and_eq_true_iff]
    exact ⟨isExact_toJson l h.1, allExact_itemsToJson ls h.2⟩

end

mutual

/-- The JSON value of a literal spells the literal. -/
lemma ofJson?_toJson : ∀ l : Literal, l.isExact = true → ofJson? l.toJson = some l
  | .null, _ | .bool _, _ | .string _, _ => rfl
  | .int n, h => by
    rw [isExact] at h
    simp [toJson, ofJson?, ofNumber, Number.toInt64?, h]
  | .double _, h => absurd h (by simp [isExact])
  | .array items, h => by
    rw [isExact] at h
    rw [toJson, ofJson?, ofItems?_itemsToJson items h]
    rfl

lemma ofItems?_itemsToJson : ∀ ls : List Literal, allExact ls = true →
    ofItems? (itemsToJson ls) = some ls
  | [], _ => rfl
  | l :: ls, h => by
    rw [allExact, Bool.and_eq_true_iff] at h
    rw [itemsToJson, ofItems?, ofJson?_toJson l h.1, ofItems?_itemsToJson ls h.2]
    rfl

end

end Literal

/-- Values that are written in place can be read back. The text of a string in single quotes
decodes to the string, and no other text does. The text of an array whose leaves are null,
booleans, integers and strings decodes to a JSON text, which parses to the value of that array. A
name in double quotes decodes to the name, and no other text does. -/
theorem inline_literals_decode (d : Dialect) (layout : Layout) :
    (∀ s t : String,
      Quoted.decode? '\'' t = some s ↔ t = (Token.literal (.string s)).print d layout) ∧
    (∀ items : List Literal, Literal.allExact items = true →
      ∃ text, Quoted.decode? '\'' ((Token.literal (.array items)).print d layout) = some text ∧
        Json.parse? text = some (Literal.array items).toJson ∧
        Literal.ofJson? (Literal.array items).toJson = some (.array items)) ∧
    ∀ name t : String, Quoted.decode? '"' t = some name ↔ t = Quoted.encode '"' name := by
  refine ⟨fun s t => Quoted.decode?_eq_some_iff, fun items h => ?_,
    fun name t => Quoted.decode?_eq_some_iff⟩
  have hexact : (Literal.array items).isExact = true := by rwa [Literal.isExact]
  refine ⟨(Literal.array items).text, Quoted.decode?_eq_some_iff.2 rfl, ?_,
    Literal.ofJson?_toJson _ hexact⟩
  exact Json.parse?_print (Literal.isExact_toJson _ hexact)

/-- Quotes of both kinds, a backslash, a control character and a nested array. -/
def knottyItems : List Literal :=
  [.string "it's \"q\" \\ \x01", .array [.null, .array []], .int (-9223372036854775808),
    .bool true]

/-- The knotty items are read back through both ways of quoting. -/
theorem knotty_items_decode :
    Literal.allExact knottyItems = true ∧
      ∃ text,
        Quoted.decode? '\'' ((Token.literal (.array knottyItems)).print .oracle26ai .compact) =
            some text ∧
          Json.parse? text = some (Literal.array knottyItems).toJson ∧
          Literal.ofJson? (Literal.array knottyItems).toJson = some (.array knottyItems) := by
  have h : Literal.allExact knottyItems = true := by decide
  exact ⟨h, (inline_literals_decode .oracle26ai .compact).2.1 knottyItems h⟩

end PipelineSql
