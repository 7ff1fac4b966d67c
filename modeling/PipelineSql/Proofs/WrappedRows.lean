import PipelineSql.Proofs.RowShapes

/-!
# Rows of columns, wrapped

A row of columns reads a path in the last computed field that covers it, or else in the last such
column. When the row is wrapped, its entries become the columns of the subquery: computed fields
come after columns, and of each name only the last is left. An entry that is dropped has the name of
a later one, so for no path is it the last that covers it.

Main result: the query around reads every path in the column that is exported for the binding in
which the row read it, by the same steps.
-/

namespace PipelineSql

/-! ## Last entries -/

/-- The first hit is that of the first element with a property, if these are the elements with a
hit. -/
lemma findSome?_ite {α β : Type} (q : α → Bool) (g : α → β) (xs : List α) :
    xs.findSome? (fun x => if q x then some (g x) else none) = (xs.find? q).map g := by
  induction xs with
  | nil => rfl
  | cons x xs ih =>
    rw [List.findSome?_cons, List.find?_cons, ih]
    cases q x <;> rfl

namespace Entry

lemma getLast?_distinct (es : List Entry) : (distinct es).getLast? = es.getLast? := by
  induction es using List.reverseRecOn with
  | nil => rfl
  | append_singleton es e _ =>
    rw [distinct_concat, put, List.getLast?_concat, List.getLast?_concat]

/-- Shadowing keeps the last entry whose name has a property. -/
lemma find?_distinct (q : Path → Bool) (es : List Entry) :
    (distinct es).reverse.find? (q ·.name) = es.reverse.find? (q ·.name) := by
  simp only [← List.head?_filter, List.filter_reverse, List.head?_reverse, filter_distinct,
    getLast?_distinct]

end Entry

/-! ## Reading in a binding -/

/-- What a path that leads to a name or below it stands for: the value of the name or a place in
it. -/
def Resolved.within (n : Path) (f : Fragment) (json : Bool) (p : Path) : Resolved :=
  if n = p then .value f json
  else .place { doc := f, steps := steps (p.segments.drop n.segments.length) }

lemma resolveIn_eq (n : Path) (f : Fragment) (json : Bool) (p : Path) :
    resolveIn n f json p = if p.isWithin n then some (.within n f json p) else none := by
  unfold resolveIn Resolved.within
  by_cases hn : n = p
  · rw [if_pos hn, if_pos hn, if_pos (hn ▸ n.isWithin_self)]
  · rw [if_neg hn, if_neg hn, Path.below?_eq hn]
    split <;> rfl

/-- The text of a column at a path. In an `ORDER BY`, an output of the query goes by its name. -/
def Column.textAt (c : Column) (own : Bool) (p : Path) : Fragment :=
  match c.value with
  | .of source => Fragment.column source c.name.toString
  | .output value => if own && c.name = p then Fragment.ident c.name.toString else value

lemma Entry.json_ofColumn (c : Column) : (ofColumn c).json = c.json := by
  unfold ofColumn
  cases c.value <;> rfl

/-- Elsewhere a column has the text of its entry. -/
lemma Column.textAt_eq {c : Column} {own : Bool} {p : Path} (h : own = false ∨ c.name ≠ p) :
    c.textAt own p = (Entry.ofColumn c).value := by
  have hown : (own && decide (c.name = p)) = false := by
    rcases h with rfl | h
    · rfl
    · rw [decide_eq_false h, Bool.and_false]
  unfold textAt Entry.ofColumn
  cases c.value with
  | of source => rfl
  | output value => rw [hown]; rfl

lemma Column.resolve?_eq (c : Column) (own : Bool) (p : Path) :
    c.resolve? own p =
      if p.isWithin c.name then some (.within c.name (c.textAt own p) c.json p) else none :=
  resolveIn_eq c.name (c.textAt own p) c.json p

lemma Computed.resolve?_eq (c : Computed) (p : Path) :
    c.resolve? p =
      if p.isWithin c.name then some (.within c.name c.value c.json p) else none :=
  resolveIn_eq c.name c.value c.json p

namespace Scope

/-- The binding in which a row of columns reads a path: the last computed field to which or below
which the path leads, or else the last such column. -/
def chosen? (s : Scope) (p : Path) : Option Entry :=
  ((s.computed.reverse.find? fun c => p.isWithin c.name).map Entry.ofComputed).or
    ((s.columns.reverse.find? fun c => p.isWithin c.name).map Entry.ofColumn)

/-- A row of columns has no document, lookups or unwound arrays. -/
structure OfColumns (s : Scope) : Prop where
  doc : s.doc = none
  lookups : s.lookups = []
  unwinds : s.unwinds = []

variable {s : Scope} {p : Path}

/-- A row of columns reads a path in the last binding that covers it. -/
lemma OfColumns.resolve_eq (h : s.OfColumns) (p : Path) (own : Bool) :
    s.resolve p own =
      (((s.computed.reverse.find? fun c => p.isWithin c.name).map
        fun c => .within c.name c.value c.json p).or
      ((s.columns.reverse.find? fun c => p.isWithin c.name).map
        fun c => .within c.name (c.textAt own p) c.json p)).getD .missing := by
  rw [Scope.resolve_eq, inDocument, pending?, h.doc, h.lookups, h.unwinds]
  simp only [Column.resolve?_eq, Computed.resolve?_eq, findSome?_ite]
  simp

/-- A row of columns reads a path in the binding that is chosen, and nowhere if there is none. -/
lemma OfColumns.resolve_cases (h : s.OfColumns) (p : Path) (own : Bool) :
    s.chosen? p = none ∧ s.resolve p own = .missing ∨
      ∃ e f, s.chosen? p = some e ∧ s.resolve p own = .within e.name f e.json p ∧
        (own = false ∨ e.name ≠ p → f = e.value) := by
  rw [h.resolve_eq, chosen?]
  cases s.computed.reverse.find? fun c => p.isWithin c.name with
  | some c => exact .inr ⟨.ofComputed c, c.value, rfl, rfl, fun _ => rfl⟩
  | none =>
    cases s.columns.reverse.find? fun c => p.isWithin c.name with
    | none => exact .inl ⟨rfl, rfl⟩
    | some c =>
      refine .inr ⟨.ofColumn c, c.textAt own p, rfl, ?_, fun hown => ?_⟩
      · rw [Entry.name_ofColumn, Entry.json_ofColumn]
        rfl
      · rw [Entry.name_ofColumn] at hown
        exact c.textAt_eq hown

/-- The binding that is chosen is the last entry that covers the path, also among the entries that
are left. -/
lemma OfColumns.find?_entries (h : s.OfColumns) (p : Path) :
    s.entries.reverse.find? (fun e => p.isWithin e.name) = s.chosen? p := by
  have hpending : s.pending = s.computed.map Entry.ofComputed := by
    simp [pending, h.lookups, h.unwinds]
  have hcolumn : ((fun e : Entry => p.isWithin e.name) ∘ Entry.ofColumn) =
      fun c => p.isWithin c.name :=
    funext fun c => by rw [Function.comp_apply, Entry.name_ofColumn]
  rw [entries, Entry.find?_distinct (p.isWithin ·), hpending, List.reverse_append,
    List.find?_append, ← List.map_reverse, ← List.map_reverse, List.find?_map, List.find?_map,
    hcolumn]
  rfl

/-- The query around reads a path in the last entry that covers it. -/
lemma resolve_wrapped_eq (hdoc : s.doc = none) (label data : String) (p : Path) (own : Bool) :
    (s.wrapped label data).resolve p own =
      ((s.entries.reverse.find? fun e => p.isWithin e.name).map fun e =>
        .within e.name (Fragment.column label e.name.toString) e.json p).getD .missing := by
  have hwrapped : s.wrapped label data =
      { columns := s.entries.map fun e => ⟨e.name, .of label, e.json⟩ } := by
    simp [wrapped, isDocument, hdoc]
  rw [hwrapped, OfColumns.resolve_eq ⟨rfl, rfl, rfl⟩, ← List.map_reverse, List.find?_map,
    Option.map_map]
  rfl

/-- An entry that is chosen is exported. -/
lemma OfColumns.mem_entries (h : s.OfColumns) {e : Entry} (he : s.chosen? p = some e) :
    e ∈ s.entries := by
  rw [← h.find?_entries] at he
  exact List.mem_reverse.1 (List.mem_of_find?_eq_some he)

end Scope

/-- Wrapping a row of columns is transparent to reading. A path that no binding covers is missing
before and after. Any other path is read before in the binding that is chosen and after in the
column that is exported for it, as the value itself or as a place in it by the same steps, and the
value is JSON text after if it was before. -/
theorem wrapped_columns_read_alike (columns : List Column) (computed : List Computed)
    (extras : List SelectItem) (label data : String) (d : Dialect) (p : Path) (own own' : Bool) :
    let s : Scope := { columns, computed, extras }
    s.chosen? p = none ∧ s.resolve p own = .missing ∧
        (s.wrapped label data).resolve p own' = .missing ∨
      ∃ e f, s.chosen? p = some e ∧
        s.resolve p own = .within e.name f e.json p ∧ (own = false ∨ e.name ≠ p → f = e.value) ∧
        (s.wrapped label data).resolve p own' =
          .within e.name (Fragment.column label e.name.toString) e.json p ∧
        Scope.entryItem e ∈ s.selectItems d data ∧
        (Scope.entryItem e).column? = some e.name.toString := by
  intro s
  have h : s.OfColumns := ⟨rfl, rfl, rfl⟩
  have hwrapped := Scope.resolve_wrapped_eq h.doc label data p own'
  rw [h.find?_entries] at hwrapped
  rcases h.resolve_cases p own with ⟨hnone, hread⟩ | ⟨e, f, he, hread, hf⟩
  · rw [hnone] at hwrapped
    exact .inl ⟨hnone, hread, hwrapped⟩
  · rw [he] at hwrapped
    have hmem := h.mem_entries he
    exact .inr ⟨e, f, he, hread, hf, hwrapped, List.mem_append_left _ (List.mem_map_of_mem hmem),
      Scope.column_entryItem hmem⟩

end PipelineSql
