import PipelineSql.Proofs.GroupKeys
import PipelineSql.Proofs.RowWindows

/-!
# Limits and skips count in turn

A limit and a skip only change the two counts of the row window, in any order and any number. The
window that is left has to give the rows that the stages give one after the other, where each takes
or drops rows of what the one before it has left.

Main result: it does, from every window, and the query says so in a clause exactly if its window
leaves rows out.
-/

namespace PipelineSql

/-- A stage that counts rows. -/
inductive RowCount where
  | limit (n : Nat)
  | skip (n : Nat)

namespace RowCount

/-- The stage of a pipeline. -/
def stage : RowCount → Stage
  | limit n => .limit n
  | skip n => .skip n

/-- The rows that are left. -/
def rows {α : Type} (c : RowCount) (rows : List α) : List α :=
  match c with
  | limit n => rows.take n
  | skip n => rows.drop n

/-- The rows that are left after stages one after the other. -/
def inTurn {α : Type} (counts : List RowCount) (rows : List α) : List α :=
  counts.foldl (fun rows c => c.rows rows) rows

end RowCount

namespace RowWindow

variable {α : Type} {w : RowWindow}

/-- The rows in a window. -/
def select (w : RowWindow) (rows : List α) : List α :=
  match w.limit with
  | none => rows.drop (w.offset.getD 0)
  | some n => (rows.drop (w.offset.getD 0)).take n

/-- The window after a stage. -/
def counted (w : RowWindow) : RowCount → RowWindow
  | .limit n => { w with limit := some (w.limit.elim n fun m => min m n) }
  | .skip n => { offset := some ((w.offset.getD 0 + n) % wordCount), limit := w.limit.map (· - n) }

/-- A stage counts among the rows of the window before it, as long as the rows to skip are a 64-bit
count. -/
lemma select_counted {w : RowWindow} {c : RowCount}
    (h : w.offset.getD 0 + Pipeline.skipCount c.stage < wordCount) (rows : List α) :
    (w.counted c).select rows = c.rows (w.select rows) := by
  obtain ⟨limit, offset⟩ := w
  cases c with
  | limit n =>
    cases limit with
    | none => rfl
    | some m =>
      show (rows.drop (offset.getD 0)).take (min m n) = ((rows.drop (offset.getD 0)).take m).take n
      rw [List.take_take, Nat.min_comm]
  | skip n =>
    have hsum : (offset.getD 0 + n) % wordCount = offset.getD 0 + n := Nat.mod_eq_of_lt h
    cases limit with
    | none =>
      show rows.drop ((offset.getD 0 + n) % wordCount) = (rows.drop (offset.getD 0)).drop n
      rw [hsum, List.drop_drop]
    | some m =>
      -- The limit counts rows after the offset, so the rows that are skipped now are taken from it.
      show (rows.drop ((offset.getD 0 + n) % wordCount)).take (m - n) =
        ((rows.drop (offset.getD 0)).take m).drop n
      rw [hsum, List.drop_take, List.drop_drop]

/-- Offsets are added where the sum is below the bound. -/
lemma offset_counted {w : RowWindow} {c : RowCount}
    (h : w.offset.getD 0 + Pipeline.skipCount c.stage < wordCount) :
    (w.counted c).offset.getD 0 = w.offset.getD 0 + Pipeline.skipCount c.stage := by
  cases c with
  | limit n => rfl
  | skip n => exact Nat.mod_eq_of_lt h

/-- Stages count in turn, and the rows to skip add up. -/
lemma select_foldl_counted {counts : List RowCount} {w : RowWindow}
    (h : w.offset.getD 0 + Pipeline.skipTotal (counts.map RowCount.stage) < wordCount) :
    (counts.foldl counted w).offset.getD 0 =
        w.offset.getD 0 + Pipeline.skipTotal (counts.map RowCount.stage) ∧
      ∀ rows : List α,
        (counts.foldl counted w).select rows = RowCount.inTurn counts (w.select rows) := by
  induction counts generalizing w with
  | nil => exact ⟨rfl, fun _ => rfl⟩
  | cons c counts ih =>
    rw [List.map_cons, Pipeline.skipTotal_cons, ← Nat.add_assoc] at h ⊢
    have hc : w.offset.getD 0 + Pipeline.skipCount c.stage < wordCount :=
      (Nat.le_add_right ..).trans_lt h
    rw [← offset_counted hc] at h ⊢
    obtain ⟨hoffset, hselect⟩ := ih h
    refine ⟨hoffset, fun rows => ?_⟩
    rw [List.foldl_cons, hselect, select_counted hc]
    rfl

end RowWindow

/-! ## The stages -/

namespace Draft

/-- The draft with another window of rows. -/
def withRows (b : Draft) (w : RowWindow) : Draft :=
  { b with query := { b.query with rows := w } }

/-- A stage that counts rows changes the window alone. -/
lemma stages_count (c : RowCount) (rest : List Stage) (b : Draft) :
    stages (c.stage :: rest) b = stages rest (b.withRows (b.query.rows.counted c)) := by
  cases c with
  | limit n =>
    have hlimit : b.limitStage n = b.withRows (b.query.rows.counted (.limit n)) := by
      unfold limitStage withRows RowWindow.counted
      cases b.query.rows.limit <;> rfl
    rw [← hlimit]
    exact stages_limit n rest b
  | skip n => exact stages_skip n rest b

/-- The rows of a draft put in their own place change nothing. -/
lemma withRows_self (b : Draft) : b.withRows b.query.rows = b := by
  obtain ⟨query, _, _, _, _, _, _⟩ := b
  cases query
  rfl

/-- Counts of rows change nothing but the rows of the draft. -/
lemma stages_counts (counts : List RowCount) (b : Draft) :
    stages (counts.map RowCount.stage) b =
      pure (b.withRows (counts.foldl RowWindow.counted b.query.rows)) := by
  induction counts generalizing b with
  | nil => rw [List.map_nil, List.foldl_nil, withRows_self, stages]
  | cons c counts ih =>
    rw [List.map_cons, stages_count, ih]
    rfl

end Draft

/-! ## The clause -/

/-- The window that a row clause asks for. Less than no rows are none. -/
def Token.window? : List Token → Option RowWindow
  | [.text "FETCH FIRST ", .int n, .text " ROWS ONLY"] => some { limit := some n.toNat }
  | [.text "OFFSET ", .int m, .text " ROWS"] => some { offset := some m.toNat }
  | [.text "OFFSET ", .int m, .text " ROWS FETCH NEXT ", .int n, .text " ROWS ONLY"] =>
    some { limit := some n.toNat, offset := some m.toNat }
  | _ => none

/-- A count as it reads once it is written. -/
def writtenCount (n : Nat) : Nat :=
  (Int.bmod n wordCount).toNat

/-- From `2 ^ 63` on, a count is written as a negative number. -/
lemma writtenCount_eq_zero {n : Nat} (h : int64Bound ≤ n) (hn : n < wordCount) :
    writtenCount n = 0 := by
  have hmod : (n : Int) % wordCount = n := Int.emod_eq_of_lt (Int.natCast_nonneg n) (by omega)
  have hhalf : ((wordCount : Int) + 1) / 2 = int64Bound := by decide
  have hnegative : Int.bmod n wordCount = n - wordCount := by
    rw [Int.bmod_def, hmod, hhalf, if_neg (by omega)]
  rw [writtenCount, hnegative]
  exact Int.toNat_of_nonpos (by omega)

/-- A count below the bound is written as it is. -/
lemma writtenCount_eq {n : Nat} (h : n < int64Bound) : writtenCount n = n := by
  have hbound : (n : Int) < int64Bound := by exact_mod_cast h
  have hbmod : Int.bmod n wordCount = n := by
    refine Int.bmod_eq_of_le ?_ ?_
    · have : (wordCount : Int) / 2 = int64Bound := by decide
      omega
    · have : ((wordCount : Int) + 1) / 2 = int64Bound := by decide
      omega
  rw [writtenCount, hbmod, Int.toNat_natCast]

namespace RowWindow

variable {α : Type} {w : RowWindow}

/-- Are the counts of the window signed 64-bit numbers? -/
structure Writable (w : RowWindow) : Prop where
  limit : ∀ n ∈ w.limit, n < int64Bound
  offset : ∀ n ∈ w.offset, n < int64Bound

/-- The window of a row clause that is written for this one. -/
def asWritten (w : RowWindow) : RowWindow :=
  { limit := w.limit.map writtenCount, offset := w.skipped.map writtenCount }

/-- The clause of the rows is read back as it was written. -/
lemma window?_fragment (h : w.isLimited = true) :
    Token.window? w.fragment.tokens = some w.asWritten := by
  unfold fragment asWritten
  unfold isLimited at h
  cases hskip : w.skipped with
  | none =>
    cases hlimit : w.limit with
    | none => simp [hskip, hlimit] at h
    | some n => rfl
  | some m =>
    cases hlimit : w.limit with
    | none => rfl
    | some n => rfl

/-- No offset is an offset of zero. -/
lemma select_skipped (limit : Option Nat) (rows : List α) :
    select { limit, offset := w.skipped } rows = select { limit, offset := w.offset } rows := by
  have hskipped : w.skipped.getD 0 = w.offset.getD 0 := by
    unfold skipped
    cases w.offset with
    | none => rfl
    | some n => cases n <;> rfl
  simp only [select, hskipped]

/-- Counts below the bound are written as they are. -/
lemma map_writtenCount {count : Option Nat} (h : ∀ n ∈ count, n < int64Bound) :
    count.map writtenCount = count := by
  cases count with
  | none => rfl
  | some n => exact congrArg some (writtenCount_eq (h n rfl))

/-- A window that can be written selects as it is written. -/
lemma select_asWritten (h : w.Writable) (rows : List α) :
    w.asWritten.select rows = w.select rows := by
  have hskipped : ∀ n ∈ w.skipped, n < int64Bound := by
    intro n hn
    exact h.offset n (Option.mem_filter_iff.1 hn).1
  rw [asWritten, map_writtenCount h.limit, map_writtenCount hskipped]
  exact select_skipped w.limit rows

/-- A limit from the bound on is written as a negative number, and asks for no row. -/
lemma limit_asWritten {n : Nat} (hn : n ∈ w.limit) (h : int64Bound ≤ n) (hlt : n < wordCount) :
    w.asWritten.limit = some 0 := by
  rw [asWritten, Option.mem_def.1 hn, Option.map_some, writtenCount_eq_zero h hlt]

/-- An offset from the bound on is written as a negative number, and skips no row. -/
lemma offset_asWritten {n : Nat} (hn : n ∈ w.offset) (h : int64Bound ≤ n) (hlt : n < wordCount) :
    w.asWritten.offset = some 0 := by
  have hpos : 0 < n := h.trans_lt' (by decide)
  have hskipped : w.skipped = some n := Option.mem_filter_iff.2 ⟨hn, decide_eq_true hpos⟩
  rw [asWritten, hskipped, Option.map_some, writtenCount_eq_zero h hlt]

/-- A window that leaves no row out has all of them. -/
lemma select_eq_self (h : w.isLimited = false) (rows : List α) : w.select rows = rows := by
  simp only [isLimited, Bool.or_eq_false_iff, Option.isSome_eq_false_iff,
    Option.isNone_iff_eq_none] at h
  calc w.select rows = select { limit := w.limit, offset := w.skipped } rows :=
        (select_skipped w.limit rows).symm
    _ = rows := by rw [h.1, h.2]; rfl

end RowWindow

namespace Query

/-- Named subqueries stand in front of the body. -/
lemma tokens_cteScopes (d : Dialect) (ctes : List Cte) :
    ∃ front, ∀ body, (cteScopes d ctes body).tokens = front ++ body.tokens := by
  induction ctes with
  | nil => exact ⟨[], fun body => by rw [cteScopes, List.nil_append]⟩
  | cons c rest ih =>
    obtain ⟨front, hfront⟩ := ih
    refine ⟨(cteFragment d c ++ (if rest.isEmpty then [] else ",") ++ newline).tokens ++ front,
      fun body => ?_⟩
    rw [cteScopes, Fragment.tokens_group, Fragment.tokens_append _ (cteScopes d rest body), hfront]
    simp only [Bracket.opening, Bracket.closing, List.nil_append, List.append_nil,
      List.append_assoc]

/-- The row clause ends the text of a query, and nothing else there depends on the window. -/
lemma tokens_rows {q : Query} (h : q.compound = none) (d : Dialect) :
    (q.fragment d).tokens =
      (fragment d { q with rows := {} }).tokens ++ (rowClause q.rows).tokens := by
  obtain ⟨ctes, items, distinct, source, joins, filters, groupBy, having, orderBy, rows,
    compound⟩ := q
  obtain rfl : compound = none := h
  obtain ⟨front, hfront⟩ := tokens_cteScopes d ctes
  have hall : rowClause {} = [] := rfl
  simp only [fragment, Fragment.tokens_append, hfront, Fragment.tokens_group, Bracket.opening,
    Bracket.closing, hall, List.nil_append, List.append_nil, List.append_assoc]

/-- How the text of a query ends: with nothing if its window leaves no row out, and else with a line
that asks for the rows of the window. A count from `2 ^ 63` on is written as the negative number with
the same bits: as a limit it asks for no row, and as an offset it skips none. -/
structure EndsIn (q : Query) (d : Dialect) (clause : List Token) : Prop where
  text : (q.fragment d).tokens = (fragment d { q with rows := {} }).tokens ++ clause
  unlimited : q.rows.isLimited = false →
    clause = [] ∧ ∀ (α : Type) (rows : List α), q.rows.select rows = rows
  limited : q.rows.isLimited = true → ∃ line w, clause = .newline :: line ∧
    Token.window? line = some w ∧
    (q.rows.Writable → ∀ (α : Type) (rows : List α), w.select rows = q.rows.select rows) ∧
    (∀ n ∈ q.rows.limit, int64Bound ≤ n → n < wordCount → w.limit = some 0) ∧
    ∀ n ∈ q.rows.offset, int64Bound ≤ n → n < wordCount → w.offset = some 0

/-- A query that is not compound ends in the clause of its rows. -/
lemma endsIn_rowClause {q : Query} (h : q.compound = none) (d : Dialect) :
    q.EndsIn d (rowClause q.rows).tokens where
  text := tokens_rows h d
  unlimited := by
    intro hrows
    rw [rowClause, if_neg (by simp [hrows])]
    exact ⟨rfl, fun _ rows => RowWindow.select_eq_self hrows rows⟩
  limited := by
    intro hrows
    rw [rowClause, if_pos hrows]
    exact ⟨_, _, rfl, RowWindow.window?_fragment hrows,
      fun hwritable _ rows => RowWindow.select_asWritten hwritable rows,
      fun _ => RowWindow.limit_asWritten, fun _ => RowWindow.offset_asWritten⟩

end Query

/-- Limits and skips that follow one another leave the window of the rows that they pass on in turn,
whatever the window was, and change nothing else. A query ends in a row clause exactly if its window
leaves rows out. -/
theorem row_counts_select_in_turn (b : Draft) (counts : List RowCount)
    (hskips : b.query.rows.offset.getD 0 + Pipeline.skipTotal (counts.map RowCount.stage) <
      wordCount) (env : Env) (e : Emission) :
    ∃ w : RowWindow,
      ((Draft.stages (counts.map RowCount.stage) b).run env).run e = .ok (b.withRows w) e ∧
      w.offset.getD 0 < wordCount ∧
      (∀ (α : Type) (rows : List α),
        w.select rows = RowCount.inTurn counts (b.query.rows.select rows)) ∧
      (b.Reachable → (b.withRows w).query.compound = none) ∧
      ∀ (q : Query) (d : Dialect), q.compound = none → ∃ clause, q.EndsIn d clause := by
  refine ⟨counts.foldl RowWindow.counted b.query.rows, ?_, ?_, ?_, ?_, ?_⟩
  · rw [Draft.stages_counts]
    rfl
  · rw [(RowWindow.select_foldl_counted (α := Unit) hskips).1]
    exact hskips
  · exact fun _ => (RowWindow.select_foldl_counted hskips).2
  · exact fun hb => hb.plain.compound
  · exact fun q d hq => ⟨_, Query.endsIn_rowClause hq d⟩

/-- Of ten orders after the third, a limit, a skip past it and two more counts leave none. -/
theorem fetch_skipped_in_turn :
    let env := Env.of { collection := "orders" } {}
    let counts : List RowCount := [.limit 7, .skip 9, .limit 4, .skip 1]
    ∃ b : Draft, b.Reachable ∧ b.query.rows = { limit := some 10, offset := some 3 } ∧
      3 + Pipeline.skipTotal (counts.map RowCount.stage) < wordCount ∧
      ∃ w, ((Draft.stages (counts.map RowCount.stage) b).run env).run {} = .ok (b.withRows w) {} ∧
        w.select (List.range 40) = [] ∧
        RowCount.inTurn counts (b.query.rows.select (List.range 40)) = [] ∧
        ∃ clause, (b.withRows w).query.EndsIn env.dialect clause := by
  intro env counts
  have hbase : ((Draft.ofCollection "orders" baseAlias []).run env).run {} = .ok _ _ := rfl
  have hcounts {b : Draft} (hb : b.Reachable) (c : RowCount) {b' e'}
      (h : ((Draft.stage c.stage b).run env).run {} = .ok b' e') : b'.Reachable :=
    .stage hb h
  obtain ⟨b, hb, hrows⟩ : ∃ b : Draft, b.Reachable ∧
      b.query.rows = { limit := some 10, offset := some 3 } :=
    ⟨_, hcounts (hcounts (.collection hbase) (.skip 3) rfl) (.limit 10) rfl, rfl⟩
  have hskips : b.query.rows.offset.getD 0 + Pipeline.skipTotal (counts.map RowCount.stage) <
      wordCount := by
    rw [hrows]
    decide
  obtain ⟨w, hrun, -, hselect, hcompound, hends⟩ := row_counts_select_in_turn b counts hskips env {}
  have hturn : RowCount.inTurn counts (b.query.rows.select (List.range 40)) = [] := by
    rw [hrows]
    decide
  rw [hrows] at hskips
  exact ⟨b, hb, hrows, hskips, w, hrun, (hselect Nat _).trans hturn, hturn,
    hends _ _ (hcompound hb)⟩

end PipelineSql
