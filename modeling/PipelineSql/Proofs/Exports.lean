import Mathlib.Data.List.Induction
import PipelineSql.Proofs.Coherence

/-!
# What a query exports

When a query becomes a subquery, the query around it reads its columns: one document, or a column
for each entry of the row. Where the row itself is read, in an `ORDER BY` as elsewhere, an entry may
stand for another value than the one that is exported under its name.

Main results: the query around reads the value at the origin of what is exported, it reads nothing
exactly if no entry covers the path, and only a column that the query selects goes by its name.
-/

namespace PipelineSql

variable {σ : Scope} {p k : Path} {ρ ρ' : Fragment → Json} {label data : String} {o : Origin}

/-! ## Entries -/

/-- What is never hit may be left out. -/
lemma findSome?_filter {α β : Type} {q : α → Bool} {f : α → Option β}
    (h : ∀ x, q x = false → f x = none) (xs : List α) :
    (xs.filter q).findSome? f = xs.findSome? f := by
  induction xs with
  | nil => rfl
  | cons x xs ih =>
    cases hx : q x with
    | true => rw [List.filter_cons_of_pos hx, List.findSome?_cons, List.findSome?_cons, ih]
    | false => rw [List.filter_cons_of_neg (by simp [hx]), List.findSome?_cons, h x hx, ih]

namespace Entry

variable {es : List Entry} {e : Entry}

/-- The origin of a path in an entry, if the path leads to it or into it. -/
def origin? (e : Entry) (p : Path) : Option Origin :=
  if p.isWithin e.name then some (.below p e.name e.value) else none

lemma name_ofColumn (c : Column) : (ofColumn c).name = c.name := by
  unfold ofColumn
  cases c.value <;> rfl

lemma distinct_concat (es : List Entry) (e : Entry) :
    distinct (es ++ [e]) = put (distinct es) e := by
  simp [distinct]

lemma filter_put (q : Path → Bool) (es : List Entry) (e : Entry) :
    (put es e).filter (q ·.name) =
      if q e.name then put (es.filter (q ·.name)) e else es.filter (q ·.name) := by
  rw [put, List.filter_append, List.filter_singleton]
  cases hq : q e.name with
  | true =>
    rw [if_pos rfl, put, List.filter_comm]
    rfl
  | false =>
    rw [if_neg Bool.false_ne_true, List.filter_filter]
    refine (List.append_nil _).trans (List.filter_congr fun x _ => ?_)
    by_cases hx : x.name = e.name
    · simp [hx, hq]
    · simp [hx]

/-- Of the entries with certain names, the same are left. -/
lemma filter_distinct (q : Path → Bool) (es : List Entry) :
    (distinct es).filter (q ·.name) = distinct (es.filter (q ·.name)) := by
  induction es using List.reverseRecOn with
  | nil => rfl
  | append_singleton es e ih =>
    rw [distinct_concat, filter_put, ih, List.filter_append, List.filter_singleton]
    cases q e.name with
    | true => exact (distinct_concat _ e).symm
    | false => simp

/-- The last entry of a name is the one that is left. -/
lemma mem_distinct_iff : e ∈ distinct es ↔ es.reverse.find? (·.name = e.name) = some e := by
  induction es using List.reverseRecOn with
  | nil => simp [distinct]
  | append_singleton es x ih =>
    rw [distinct_concat, put, List.mem_append, List.mem_singleton, List.mem_filter, ih,
      List.reverse_append, List.reverse_singleton, List.singleton_append, List.find?_cons]
    by_cases hx : x.name = e.name
    · rw [decide_eq_true hx]
      simp [hx, eq_comm]
    · rw [decide_eq_false hx]
      have hne : e ≠ x := fun h => hx (h ▸ rfl)
      simp [Ne.symm hx, hne]

/-- A path leads to the last entry that covers it. -/
lemma findSome?_distinct (p : Path) (es : List Entry) :
    (distinct es).reverse.findSome? (·.origin? p) = es.reverse.findSome? (·.origin? p) := by
  induction es using List.reverseRecOn with
  | nil => rfl
  | append_singleton es e ih =>
    rw [distinct_concat, put, List.reverse_append, List.reverse_append, List.reverse_singleton,
      List.singleton_append, List.singleton_append, List.findSome?_cons, List.findSome?_cons]
    cases he : e.origin? p with
    | some o => rfl
    | none =>
      rw [← ih, ← List.filter_reverse]
      refine findSome?_filter (fun x hx => ?_) _
      rw [bne_eq_false_iff_eq] at hx
      simpa [origin?, hx] using he

end Entry

/-! ## What a query exports -/

namespace Scope

/-- The entries of the row, also those that later ones of their names replace. -/
def listed (σ : Scope) : List Entry :=
  σ.columns.map Entry.ofColumn ++ σ.pending

/-- The origin of what the query around reads at a path. A document is exported with all entries
set, and without one each entry is a column by itself. -/
def exportOrigin (σ : Scope) (p : Path) : Origin :=
  match σ.doc with
  | some _ => σ.rowOrigin p
  | none => (σ.entries.reverse.findSome? (·.origin? p)).getD .nothing

/-- The values of the columns of a subquery over the row. -/
structure Exports (ρ : Fragment → Json) (σ : Scope) (label data : String)
    (ρ' : Fragment → Json) : Prop where
  document : σ.isDocument = true → ρ' (Fragment.column label data) = σ.row ρ
  column : σ.isDocument = false →
    ∀ e ∈ σ.entries, ρ' (Fragment.column label e.name.toString) = ρ e.value

/-- The binding of an exported column. -/
def exported (label : String) (e : Entry) : Binding :=
  { name := e.name, value := Fragment.column label e.name.toString }

lemma readOrigin_wrapped (hdoc : σ.doc = none) (p : Path) :
    (σ.wrapped label data).readOrigin p =
      (σ.entries.reverse.findSome? fun e => (exported label e).origin? p).getD .nothing := by
  have hbindings : (σ.wrapped label data).bindings = σ.entries.map (exported label) := by
    simp [wrapped, isDocument, hdoc, bindings, Binding.ofColumn, exported, Function.comp_def]
  have hbase : (σ.wrapped label data).baseOrigin p = .nothing := by
    simp [wrapped, isDocument, hdoc, baseOrigin]
  rw [readOrigin, hbindings, hbase, ← List.map_reverse, List.findSome?_map]
  rfl

lemma value?_exported {es : List Entry}
    (h : ∀ e ∈ es, ρ' (Fragment.column label e.name.toString) = ρ e.value) :
    Origin.value? ρ' ((es.findSome? fun e => (exported label e).origin? p).getD .nothing) =
      Origin.value? ρ ((es.findSome? (·.origin? p)).getD .nothing) := by
  induction es with
  | nil => rfl
  | cons e es ih =>
    obtain ⟨he, hes⟩ := List.forall_mem_cons.1 h
    rw [List.findSome?_cons, List.findSome?_cons]
    by_cases hw : p.isWithin e.name
    · simp [Binding.origin?, Binding.covers, exported, Entry.origin?, hw, Origin.below,
        Origin.value?, he]
    · simpa [Binding.origin?, Binding.covers, exported, Entry.origin?, hw] using ih hes

/-- What is exported has the value that the row has. -/
lemma value?_row (hp : k.IsDotted) (hfits : σ.Fits ρ) (hdoc : σ.isDocument = true)
    (hone : σ.exportOrigin k ≠ .mixed) :
    (σ.row ρ).at? k.segments = (σ.exportOrigin k).value? ρ := by
  obtain ⟨doc, hdoc⟩ := Option.isSome_iff_exists.1 hdoc
  have htraces := traces_row hp hfits
  rw [exportOrigin, hdoc] at hone ⊢
  simp only at hone ⊢
  cases ho : σ.rowOrigin k with
  | mixed => exact absurd ho hone
  | nothing => rw [ho] at htraces; exact htraces
  | within f rest => rw [ho] at htraces; exact htraces

/-- The query around reads what is exported. -/
lemma value?_wrapped (hp : p.IsDotted) (hfits : σ.Fits ρ) (hexports : σ.Exports ρ label data ρ')
    (hone : σ.exportOrigin p ≠ .mixed) :
    ((σ.wrapped label data).resolve p false).value? ρ' = (σ.exportOrigin p).value? ρ := by
  rw [value?_resolve hp]
  cases hdoc : σ.doc with
  | some doc =>
    have hread : (σ.wrapped label data).readOrigin p =
        .within (Fragment.column label data) p.segments := by
      rw [wrapped, isDocument, hdoc]
      rfl
    have hisdoc : σ.isDocument = true := by rw [isDocument, hdoc]; rfl
    rw [hread, Origin.value?, hexports.document hisdoc]
    exact value?_row hp hfits hisdoc hone
  | none =>
    rw [readOrigin_wrapped hdoc, exportOrigin, hdoc]
    have hvalues := hexports.column (by rw [isDocument, hdoc]; rfl)
    exact value?_exported fun e he => hvalues e (List.mem_reverse.1 he)

/-- The origin of a path in columns. -/
lemma readOrigin_columns (columns : List Column) (k : Path) :
    ({ columns } : Scope).readOrigin k =
      (columns.reverse.findSome? fun c => (Binding.ofColumn c).origin? k).getD .nothing := by
  simp only [readOrigin, bindings, List.flatMap_nil, List.map_nil, List.append_nil,
    ← List.map_reverse, List.findSome?_map, baseOrigin]
  rfl

lemma origin?_ofColumn (c : Column) (k : Path) :
    (Entry.ofColumn c).origin? k = (Binding.ofColumn c).origin? k := by
  unfold Entry.ofColumn Binding.ofColumn
  cases c.value <;> rfl

/-- Columns are read where they are exported. -/
lemma coherent_columns (columns : List Column) (k : Path) :
    ({ columns } : Scope).readOrigin k = ({ columns } : Scope).exportOrigin k := by
  rw [readOrigin_columns, exportOrigin, entries, Entry.findSome?_distinct]
  simp only [pending, List.map_nil, List.flatMap_nil, List.append_nil, ← List.map_reverse,
    List.findSome?_map, Function.comp_def, origin?_ofColumn]

/-- So is a document without entries. -/
lemma origins_document (doc : DocSource) (k : Path) :
    ({ doc := some doc } : Scope).readOrigin k = .within doc.fragment k.segments ∧
      ({ doc := some doc } : Scope).exportOrigin k = .within doc.fragment k.segments :=
  ⟨rfl, rfl⟩

/-- A subquery is read where it is exported. -/
lemma coherent_wrapped (σ : Scope) (label data : String) (k : Path) :
    (σ.wrapped label data).readOrigin k = (σ.wrapped label data).exportOrigin k := by
  unfold wrapped
  split
  · rfl
  · exact coherent_columns _ k

/-! ## Keys that are not exported -/

/-- Does the query around read anything at a path? -/
def Exported (σ : Scope) (k : Path) : Prop :=
  σ.isDocument = true ∨ ∃ e ∈ σ.entries, k.isWithin e.name = true

/-- Where there is a value, entries leave one. -/
lemma foldl_after_ne_nothing (es : List Entry) (ho : o ≠ .nothing) :
    es.foldl (Origin.after k) o ≠ .nothing := by
  induction es generalizing o with
  | nil => exact ho
  | cons e es ih =>
    refine ih ?_
    unfold Origin.after
    split
    · exact nofun
    · split
      · exact nofun
      · exact ho

lemma exportOrigin_eq_nothing_iff : σ.exportOrigin k = .nothing ↔ ¬ σ.Exported k := by
  unfold exportOrigin Exported isDocument
  cases hdoc : σ.doc with
  | none =>
    simp only [Option.isSome_none, Bool.false_eq_true, false_or, not_exists, not_and]
    constructor
    · intro h e he hw
      have hsome : (σ.entries.reverse.findSome? (·.origin? k)).isSome := by
        rw [List.findSome?_isSome_iff]
        exact ⟨e, List.mem_reverse.2 he, by simp [Entry.origin?, hw]⟩
      obtain ⟨o, ho⟩ := Option.isSome_iff_exists.1 hsome
      obtain ⟨e', _, he'⟩ := List.exists_of_findSome?_eq_some ho
      simp only [ho, Option.getD_some] at h
      simp [Entry.origin?, h, Origin.below] at he'
    · intro h
      rw [List.findSome?_eq_none_iff.2]
      · rfl
      · intro e he
        simp [Entry.origin?, h e (List.mem_reverse.1 he)]
  | some doc =>
    have hne : σ.rowOrigin k ≠ .nothing :=
      foldl_after_ne_nothing _ (by rw [baseOrigin, hdoc]; rintro ⟨⟩)
    simp [hne]

/-- A value is read for the paths that lead to it or into it. -/
lemma resolveIn_cases (n : Path) (f : Fragment) (json : Bool) (p : Path) :
    p.isWithin n = false ∧ resolveIn n f json p = none ∨
    p.isWithin n = true ∧ (resolveIn n f json p = some (.value f json) ∨
      ∃ l, resolveIn n f json p = some (.place l) ∧ l.doc = f) := by
  unfold resolveIn
  by_cases hn : n = p
  · rw [if_pos hn]
    exact .inr ⟨hn ▸ n.isWithin_self, .inl rfl⟩
  · rw [if_neg hn, Path.below?_eq hn]
    cases p.isWithin n with
    | true => exact .inr ⟨rfl, .inr ⟨_, rfl, rfl⟩⟩
    | false => exact .inl ⟨rfl, rfl⟩

/-- What the query around reads at a path: a column of the subquery or a place in one, and nothing
exactly if none is exported. -/
lemma resolve_wrapped (σ : Scope) (label data : String) (k : Path) (own : Bool) :
    ¬ σ.Exported k ∧ (σ.wrapped label data).resolve k own = .missing ∨
    σ.Exported k ∧ ∃ name, (∃ json, (σ.wrapped label data).resolve k own =
        .value (Fragment.column label name) json) ∨
      ∃ l, (σ.wrapped label data).resolve k own = .place l ∧
        l.doc = Fragment.column label name := by
  unfold wrapped
  cases hdoc : σ.isDocument with
  | true =>
    exact .inr ⟨.inl hdoc, data, .inr ⟨_, rfl, rfl⟩⟩
  | false =>
    simp only [Bool.false_eq_true, if_false, resolve, List.reverse_nil, List.findSome?_nil,
      Option.orElse_eq_orElse, Option.orElse_eq_or, Option.none_or, ← List.map_reverse,
      List.findSome?_map]
    cases hfind : σ.entries.reverse.findSome? ((·.resolve? own k) ∘ fun e : Entry =>
        (⟨e.name, .of label, e.json⟩ : Column)) with
    | none =>
      refine .inl ⟨?_, rfl⟩
      rintro (h | ⟨e, he, hw⟩)
      · rw [hdoc] at h
        cases h
      · have hnone := List.findSome?_eq_none_iff.1 hfind e (List.mem_reverse.2 he)
        simp only [Function.comp_apply, Column.resolve?] at hnone
        rcases resolveIn_cases e.name (Fragment.column label e.name.toString) e.json k with
          ⟨h, _⟩ | ⟨_, h | ⟨l, h, _⟩⟩
        · rw [hw] at h
          cases h
        · rw [hnone] at h
          cases h
        · rw [hnone] at h
          cases h
    | some r =>
      obtain ⟨e, he, hr⟩ := List.exists_of_findSome?_eq_some hfind
      simp only [Function.comp_apply, Column.resolve?] at hr
      rcases resolveIn_cases e.name (Fragment.column label e.name.toString) e.json k with
        ⟨_, h⟩ | ⟨hw, h⟩
      · rw [hr] at h
        cases h
      · refine .inr ⟨.inr ⟨e, List.mem_reverse.1 he, hw⟩, e.name.toString, ?_⟩
        rw [hr] at h
        exact h.imp (fun h => ⟨_, Option.some.inj h⟩) fun ⟨l, h, hl⟩ => ⟨l, Option.some.inj h, hl⟩

/-- What is read in nothing is missing. -/
lemma resolve_eq_missing (hp : p.IsDotted) (h : σ.readOrigin p = .nothing) :
    σ.resolve p false = .missing := by
  cases hr : σ.resolve p false with
  | missing => rfl
  | value f json =>
    have hvalue := value?_resolve hp (fun _ => Json.null) σ
    rw [hr, h] at hvalue
    cases hvalue
  | place l =>
    -- A place has a value if the document has one there.
    have hvalue := value?_resolve hp (fun _ => Json.set l.steps .null (.obj [])) σ
    have heach : (Json.set l.steps .null (.obj [])).each? l.steps =
        (Json.set l.steps .null (.obj [])).at? l.steps := by
      cases l.steps <;> rfl
    simp [hr, h, Resolved.value?, heach, Json.at?_set_self, Origin.value?] at hvalue

/-- The query around sorts by null exactly if nothing is exported to which the path leads. -/
lemma sortValue_wrapped_eq_null_iff (env : Env) :
    (Draft.sortValue env (σ.wrapped label data) k false).1 = Fragment.null ↔ ¬ σ.Exported k := by
  rcases σ.resolve_wrapped label data k false with
    ⟨hnot, hr⟩ | ⟨hexp, name, ⟨json, hr⟩ | ⟨l, hr, hl⟩⟩
  · simp [Draft.sortValue, hr, hnot]
  · simp [Draft.sortValue, hr, hexp, Fragment.null, Fragment.column, Fragment.ofToken]
  · -- The text starts with the column or with the name of a function.
    simp only [hexp, not_true_eq_false, iff_false]
    simp only [Draft.sortValue, hr]
    split
    · simp [Location.dotFragment, hl, Fragment.column, Fragment.null, Fragment.ofToken]
    · simp only [Env.fieldValue, Env.resolve, hr]
      unfold Location.scalar
      split
      · simp [jsonQuery, Fragment.text, Fragment.null, Fragment.ofToken]
      · split
        · simp [Location.dotFragment, hl, Fragment.column, Fragment.null, Fragment.ofToken]
        · simp [jsonValue, Fragment.call, Fragment.text, Fragment.null, Fragment.ofToken]

/-! ## Columns that go by their names -/

/-- Does an `ORDER BY` call a column of the query by its name? Elsewhere the path stands for the
expression of the column. -/
def ByName (σ : Scope) (k : Path) (f : Fragment) : Prop :=
  ∃ json, σ.resolve k false = .value f json ∧
    σ.resolve k true = .value (Fragment.ident k.toString) json ∧ f ≠ Fragment.ident k.toString

/-- What a path stands for in the fields that are pending. -/
def pending? (σ : Scope) (k : Path) : Option Resolved :=
  σ.computed.reverse.findSome? (·.resolve? k) <|> σ.lookups.reverse.findSome? (·.resolve? k) <|>
    σ.unwinds.reverse.findSome? (·.resolve? k)

/-- What a path stands for in the document. -/
def inDocument (σ : Scope) (k : Path) : Resolved :=
  (σ.doc.map (·.resolve k)).getD .missing

/-- Only the columns are read differently in an `ORDER BY`. -/
lemma resolve_eq (σ : Scope) (k : Path) (own : Bool) : σ.resolve k own =
    ((σ.pending? k).or (σ.columns.reverse.findSome? (·.resolve? own k))).getD (σ.inDocument k) := by
  simp only [resolve, pending?, inDocument, Option.orElse_eq_orElse, Option.orElse_eq_or,
    Option.or_assoc]
  generalize Option.or _ _ = bound
  cases bound with
  | some r => rfl
  | none => cases σ.doc <;> rfl

lemma inDocument_ne_value {f : Fragment} {json : Bool} : σ.inDocument k ≠ .value f json := by
  unfold inDocument
  cases σ.doc with
  | none => exact nofun
  | some doc => cases doc <;> exact nofun

/-- A column is called by its name or read as it is elsewhere. -/
lemma findSome?_own (cs : List Column) (k : Path) :
    cs.findSome? (·.resolve? true k) = cs.findSome? (·.resolve? false k) ∨
    ∃ f json, cs.findSome? (·.resolve? true k) = some (.value (Fragment.ident k.toString) json) ∧
      cs.findSome? (·.resolve? false k) = some (.value f json) := by
  induction cs with
  | nil => exact .inl rfl
  | cons c cs ih =>
    rw [List.findSome?_cons, List.findSome?_cons]
    by_cases hname : c.name = k
    · cases hvalue : c.value with
      | of source => exact .inl (by simp [Column.resolve?, resolveIn, hvalue, hname])
      | output f => exact .inr ⟨f, c.json, by simp [Column.resolve?, resolveIn, hvalue, hname]⟩
    · have hsame : c.resolve? true k = c.resolve? false k := by simp [Column.resolve?, hname]
      rw [hsame]
      cases c.resolve? false k with
      | none => exact ih
      | some r => exact .inl rfl

/-- In an `ORDER BY` a path stands for what it stands for elsewhere, or for the name of a column. -/
lemma resolve_own (σ : Scope) (k : Path) :
    σ.resolve k true = σ.resolve k false ∨ ∃ f, σ.ByName k f := by
  unfold ByName
  simp only [resolve_eq]
  cases σ.pending? k with
  | some r => exact .inl rfl
  | none =>
    rcases findSome?_own σ.columns.reverse k with h | ⟨f, json, hown, hread⟩
    · exact .inl (by rw [h])
    · rw [hown, hread]
      by_cases hf : f = Fragment.ident k.toString
      · exact .inl (by rw [hf])
      · exact .inr ⟨f, json, rfl, rfl, hf⟩

/-- The column that goes by its name is the last of that name. -/
lemma find?_byName {cs : List Column} {f : Fragment} {json : Bool}
    (hown : cs.findSome? (·.resolve? true k) = some (.value (Fragment.ident k.toString) json))
    (hread : cs.findSome? (·.resolve? false k) = some (.value f json))
    (hne : f ≠ Fragment.ident k.toString) :
    (cs.map Entry.ofColumn).find? (·.name = k) = some ⟨k, f, json, false⟩ := by
  induction cs with
  | nil => cases hread
  | cons c cs ih =>
    rw [List.findSome?_cons] at hown hread
    rw [List.map_cons, List.find?_cons]
    by_cases hname : c.name = k
    · cases hvalue : c.value with
      | of source =>
        -- A column of the source is read the same way everywhere.
        simp only [Column.resolve?, resolveIn, hvalue, hname, if_true] at hown hread
        cases hread
        cases hown
      | output value =>
        simp only [Column.resolve?, resolveIn, hvalue, hname, if_true] at hown hread
        cases hread
        simp [Entry.ofColumn, hvalue, hname]
    · have hentry : (Entry.ofColumn c).name ≠ k := by rwa [Entry.name_ofColumn]
      have hplace : ∀ own, c.resolve? own k = none ∨ ∃ l, c.resolve? own k = some (.place l) := by
        intro own
        simp only [Column.resolve?, resolveIn, if_neg hname]
        cases k.below? c.name with
        | none => exact .inl rfl
        | some rest => exact .inr ⟨_, rfl⟩
      rw [decide_eq_false hentry]
      refine ih ?_ ?_
      · rcases hplace true with h | ⟨l, h⟩ <;> rw [h] at hown
        · exact hown
        · cases hown
      · rcases hplace false with h | ⟨l, h⟩ <;> rw [h] at hread
        · exact hread
        · cases hread

/-- What is read in nothing that is pending has none of its names. -/
lemma forall_pending_ne (h : σ.pending? k = none) : ∀ e ∈ σ.pending, e.name ≠ k := by
  simp only [pending?, Option.orElse_eq_orElse, Option.orElse_eq_or, Option.or_eq_none_iff,
    List.findSome?_eq_none_iff, List.mem_reverse] at h
  obtain ⟨hc, hl, hu⟩ := h
  intro e he hname
  simp only [pending, List.mem_append, List.mem_map, List.mem_flatMap] at he
  rcases he with (⟨c, hmem, rfl⟩ | ⟨l, hmem, rfl⟩) | ⟨u, hmem, he⟩
  · have h := hc c hmem
    simp [Computed.resolve?, resolveIn, show c.name = k from hname] at h
  · have h := hl l hmem
    simp [Found.resolve?, show l.asField = k from hname] at h
  · have h := hu u hmem
    have hnames : u.path = k ∨ u.index = some k := by
      unfold Entry.ofUnwound at he
      cases hi : u.index with
      | none =>
        rw [hi] at he
        obtain rfl := List.mem_singleton.1 he
        exact .inl hname
      | some i =>
        rw [hi] at he
        rcases List.mem_cons.1 he with rfl | he
        · exact .inl hname
        · obtain rfl := List.mem_singleton.1 he
          exact .inr (congrArg some hname)
    unfold Unwound.resolve? at h
    by_cases hi : u.index = some k
    · simp [hi] at h
    · simp [hi, hnames.resolve_right hi] at h

/-- The expression belongs to a column, and nothing that is pending has its name. -/
lemma ByName.column {f : Fragment} (h : σ.ByName k f) :
    (∀ e ∈ σ.pending, e.name ≠ k) ∧
      ∃ json, (σ.columns.map Entry.ofColumn).reverse.find? (·.name = k) =
        some ⟨k, f, json, false⟩ := by
  obtain ⟨json, hread, hown, hne⟩ := h
  rw [resolve_eq] at hread hown
  cases hp : σ.pending? k with
  | some r =>
    -- A field that is pending would be read the same way everywhere.
    rw [hp] at hread hown
    cases hread.symm.trans hown
    exact absurd rfl hne
  | none =>
    refine ⟨forall_pending_ne hp, json, ?_⟩
    have hcolumns {own f} (h : ((σ.pending? k).or
        (σ.columns.reverse.findSome? (·.resolve? own k))).getD (σ.inDocument k) = .value f json) :
        σ.columns.reverse.findSome? (·.resolve? own k) = some (.value f json) := by
      rw [hp, Option.none_or] at h
      cases hc : σ.columns.reverse.findSome? (·.resolve? own k) with
      | some r => rw [hc] at h; exact congrArg some h
      | none => rw [hc] at h; exact absurd h inDocument_ne_value
    rw [← List.map_reverse]
    exact find?_byName (hcolumns hown) (hcolumns hread) hne

end Scope

end PipelineSql
