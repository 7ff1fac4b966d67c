import Mathlib.Data.List.Basic
import PipelineSql.Compile
import PipelineSql.Proofs.Document

/-!
# Coherence of rows

The row of a scope is the document with every entry set at its name, in order. A path is read by
`Scope.resolve`, which prefers computed fields to lookups, those to unwound arrays, those to
columns, and these to the document. The row prefers what was set last.

Main result: what a path stands for has the value at the path in the row, whatever the values are,
exactly if reading and row take it from the same place.
-/

namespace PipelineSql

/-! ## Values -/

/-- The value that a path stands for, when fragments have the given values. -/
def Resolved.value? (ρ : Fragment → Json) : Resolved → Option Json
  | .value f _ => some (ρ f)
  | .place l => if l.each then (ρ l.doc).each? l.steps else (ρ l.doc).at? l.steps
  | .missing => none

/-- A document with an entry set at its name. -/
def Entry.setIn (ρ : Fragment → Json) (row : Json) (e : Entry) : Json :=
  Json.set e.name.segments (ρ e.value) row

/-- Is each entry in turn set through objects? -/
def Entry.Fits (ρ : Fragment → Json) : List Entry → Json → Prop
  | [], _ => True
  | e :: es, row => row.Open e.name.segments ∧ Fits ρ es (e.setIn ρ row)

namespace Scope

/-- The document of the row without its entries. -/
def base (s : Scope) (ρ : Fragment → Json) : Json :=
  match s.doc with
  | some doc => ρ doc.fragment
  | none => .obj []

/-- The row: the document with all entries set in order. -/
def row (s : Scope) (ρ : Fragment → Json) : Json :=
  s.entries.foldl (Entry.setIn ρ) (s.base ρ)

/-- Do the values leave the name of each entry free of arrays? -/
def Fits (s : Scope) (ρ : Fragment → Json) : Prop :=
  Entry.Fits ρ s.entries (s.base ρ)

end Scope

/-! ## Origins -/

/-- Where the value at a path comes from. -/
inductive Origin where
  /-- There is no value. -/
  | nothing
  /-- From a fragment, by the steps that are left of the path. -/
  | within (f : Fragment) (rest : List String)
  /-- From several: the value is an object into which others were set. -/
  | mixed

namespace Origin

/-- The origin in a value of the given name. -/
def below (p name : Path) (f : Fragment) : Origin :=
  .within f (p.segments.drop name.segments.length)

/-- The value at an origin. -/
def value? (ρ : Fragment → Json) : Origin → Option Json
  | .within f rest => (ρ f).at? rest
  | .nothing | .mixed => none

/-- The origin after one more entry: the entry itself if the path leads to it or into it. -/
def after (p : Path) (o : Origin) (e : Entry) : Origin :=
  if p.isWithin e.name then below p e.name e.value
  else if e.name.isWithin p then .mixed
  else o

end Origin

/-- A name with a value as it is read. -/
structure Binding where
  name : Path
  value : Fragment
  /-- Are paths below the name read in the value? -/
  deep : Bool := true

namespace Binding

/-- The binding of a column. -/
def ofColumn (c : Column) : Binding :=
  match c.value with
  | .of source => { name := c.name, value := Fragment.column source c.name.toString }
  | .output value => { name := c.name, value }

/-- The bindings of an unwound array. Nothing is read below the position. -/
def ofUnwound (u : Unwound) : List Binding :=
  { name := u.path, value := Fragment.column u.source valueColumn } ::
    (u.index.map fun index =>
      ({ name := index, value := positionOf u.source, deep := false } : Binding)).toList

/-- The binding of a lookup. -/
def ofFound (l : Found) : Binding :=
  { name := l.asField, value := Fragment.column l.source docsColumn }

/-- The binding of a computed field. -/
def ofComputed (c : Computed) : Binding :=
  { name := c.name, value := c.value }

/-- Is the binding read for a path? -/
def covers (b : Binding) (p : Path) : Bool :=
  if b.deep then p.isWithin b.name else b.name = p

/-- The origin of a path in a binding, if the binding is read for it. -/
def origin? (b : Binding) (p : Path) : Option Origin :=
  if b.covers p then some (.below p b.name b.value) else none

end Binding

namespace Scope

/-- The origin of a path in the document. -/
def baseOrigin (s : Scope) (p : Path) : Origin :=
  match s.doc with
  | some doc => .within doc.fragment p.segments
  | none => .nothing

/-- The origin of the value that the row has at a path. -/
def rowOrigin (s : Scope) (p : Path) : Origin :=
  s.entries.foldl (Origin.after p) (s.baseOrigin p)

/-- All bindings, in the order in which later ones are preferred for reading. -/
def bindings (s : Scope) : List Binding :=
  s.columns.map Binding.ofColumn ++ s.unwinds.flatMap Binding.ofUnwound ++
    s.lookups.map Binding.ofFound ++ s.computed.map Binding.ofComputed

/-- The origin of what is read at a path. -/
def readOrigin (s : Scope) (p : Path) : Origin :=
  (s.bindings.reverse.findSome? (·.origin? p)).getD (s.baseOrigin p)

end Scope

/-! ## Paths -/

/-- Is the path a sequence of names, none of them empty? -/
def Path.IsDotted (p : Path) : Prop :=
  p.segments ≠ [] ∧ "" ∉ p.segments

instance : DecidablePred Path.IsDotted := fun p =>
  inferInstanceAs (Decidable (p.segments ≠ [] ∧ "" ∉ p.segments))

namespace Path

variable {p n : Path}

lemma isWithin_iff : p.isWithin n = true ↔ n.segments <+: p.segments :=
  List.isPrefixOf_iff_prefix

lemma isWithin_self (p : Path) : p.isWithin p = true :=
  isWithin_iff.2 List.prefix_rfl

/-- The steps below a name are what is left of the path. -/
lemma below?_eq (h : n ≠ p) : p.below? n =
    if p.isWithin n then some (p.segments.drop n.segments.length) else none := by
  unfold below?
  cases hb : n.segments.isPrefixOf? p.segments with
  | none =>
    rw [if_neg]
    rw [isWithin_iff]
    rintro ⟨rest, hrest⟩
    rw [List.isPrefixOf?_eq_some_iff_append_eq.2 hrest] at hb
    cases hb
  | some rest =>
    have hrest := List.isPrefixOf?_eq_some_iff_append_eq.1 hb
    rw [if_pos (isWithin_iff.2 ⟨rest, hrest⟩), ← hrest, List.drop_left]
    cases rest with
    | nil =>
      rw [List.append_nil] at hrest
      exact absurd (congrArg Path.mk hrest) h
    | cons k ks => rfl

/-- The steps of a part of a dotted path are its segments. -/
lemma IsDotted.steps_drop (h : p.IsDotted) (n : Nat) :
    steps (p.segments.drop n) = p.segments.drop n := by
  refine if_neg fun hd => h.2 (List.mem_of_mem_drop (i := n) ?_)
  rw [hd]
  exact List.mem_singleton_self _

end Path

/-! ## Reading -/

/-- The first hit in lists that are strung together. -/
lemma findSome?_flatMap {α β γ : Type} (f : β → Option γ) (g : α → List β) (xs : List α) :
    (xs.flatMap g).findSome? f = xs.findSome? fun x => (g x).findSome? f := by
  induction xs with
  | nil => rfl
  | cons x xs ih =>
    rw [List.flatMap_cons, List.findSome?_append, List.findSome?_cons, ih]
    cases (g x).findSome? f <;> rfl

/-- First hits agree in what they are taken to if all hits do. -/
lemma map_findSome?_congr {α β γ δ : Type} {f : α → Option β} {g : α → Option γ} {v : β → δ}
    {w : γ → δ} (h : ∀ x, (f x).map v = (g x).map w) (xs : List α) :
    (xs.findSome? f).map v = (xs.findSome? g).map w := by
  rw [List.map_findSome?, List.map_findSome?]
  exact congrArg (xs.findSome? ·) (funext h)

section Reading

variable {p : Path} (hp : p.IsDotted) (ρ : Fragment → Json)

include hp

/-- Reading a value of a name is reading its binding. -/
lemma value?_resolveIn (n : Path) (f : Fragment) (json : Bool) :
    (resolveIn n f json p).map (Resolved.value? ρ) =
      (Binding.origin? { name := n, value := f } p).map (Origin.value? ρ) := by
  unfold resolveIn Binding.origin? Binding.covers
  by_cases hn : n = p
  · subst hn
    simp [n.isWithin_self, Resolved.value?, Origin.value?, Origin.below, Json.at?]
  · rw [if_neg hn, Path.below?_eq hn]
    by_cases hw : p.isWithin n
    · simp [hw, Resolved.value?, Origin.value?, Origin.below, hp.steps_drop]
    · simp [hw]

lemma value?_column (c : Column) :
    (c.resolve? false p).map (Resolved.value? ρ) =
      ((Binding.ofColumn c).origin? p).map (Origin.value? ρ) := by
  unfold Column.resolve? Binding.ofColumn
  rw [value?_resolveIn hp ρ]
  cases c.value <;> simp

lemma value?_computed (c : Computed) :
    (c.resolve? p).map (Resolved.value? ρ) =
      ((Binding.ofComputed c).origin? p).map (Origin.value? ρ) :=
  value?_resolveIn hp ρ c.name c.value c.json

/-- Steps below a lookup apply to each document, as a member of an array does. -/
lemma value?_found (l : Found) :
    (l.resolve? p).map (Resolved.value? ρ) =
      ((Binding.ofFound l).origin? p).map (Origin.value? ρ) := by
  unfold Found.resolve? Binding.origin? Binding.covers Binding.ofFound
  by_cases hn : l.asField = p
  · subst hn
    simp [Path.isWithin_self, Resolved.value?, Origin.value?, Origin.below, Json.at?]
  · rw [if_neg hn, Path.below?_eq hn]
    by_cases hw : p.isWithin l.asField
    · simp only [hw, if_true, Option.map_some, Resolved.value?, Origin.value?, Origin.below,
        hp.steps_drop]
      split
      · next heach => rw [Json.each?_eq_at? (by simpa using heach)]
      · rfl
    · simp [hw]

lemma value?_unwound (u : Unwound) :
    (u.resolve? p).map (Resolved.value? ρ) =
      ((Binding.ofUnwound u).reverse.findSome? (·.origin? p)).map (Origin.value? ρ) := by
  have helement : (if u.path = p then
        some (.place { doc := Fragment.column u.source valueColumn, steps := [] })
      else (p.below? u.path).map fun rest =>
        .place { doc := Fragment.column u.source valueColumn, steps := steps rest }).map
          (Resolved.value? ρ) =
      (Binding.origin? ⟨u.path, Fragment.column u.source valueColumn, true⟩ p).map
        (Origin.value? ρ) := by
    rw [← value?_resolveIn hp ρ u.path _ true, resolveIn]
    split
    · simp [Resolved.value?, Json.at?]
    · rfl
  unfold Unwound.resolve? Binding.ofUnwound
  cases hi : u.index with
  | none => simpa using helement
  | some index =>
    by_cases h : index = p
    · subst h
      simp [Binding.origin?, Binding.covers, Resolved.value?, Origin.value?, Origin.below, Json.at?]
    · simpa [Binding.origin?, Binding.covers, h] using helement

/-- What a path stands for has the value at its origin. -/
lemma value?_resolve (s : Scope) :
    (s.resolve p false).value? ρ = (s.readOrigin p).value? ρ := by
  have hcomputed := map_findSome?_congr (value?_computed hp ρ) s.computed.reverse
  have hfound := map_findSome?_congr (value?_found hp ρ) s.lookups.reverse
  have hunwound := map_findSome?_congr (value?_unwound hp ρ) s.unwinds.reverse
  have hcolumn := map_findSome?_congr (value?_column hp ρ) s.columns.reverse
  have hbound : (s.computed.reverse.findSome? (·.resolve? p) <|>
      s.lookups.reverse.findSome? (·.resolve? p) <|> s.unwinds.reverse.findSome? (·.resolve? p) <|>
      s.columns.reverse.findSome? (·.resolve? false p)).map (Resolved.value? ρ) =
      (s.bindings.reverse.findSome? (·.origin? p)).map (Origin.value? ρ) := by
    simp only [Scope.bindings, List.reverse_append, List.findSome?_append, Option.map_or,
      ← List.map_reverse, List.findSome?_map, List.reverse_flatMap, findSome?_flatMap,
      Option.orElse_eq_orElse, Option.orElse_eq_or, hcomputed, hfound, hunwound, hcolumn]
    rfl
  unfold Scope.resolve Scope.readOrigin
  generalize (s.computed.reverse.findSome? (·.resolve? p) <|> _ : Option Resolved) = bound,
    s.bindings.reverse.findSome? (·.origin? p) = origin at hbound
  cases bound with
  | some r =>
    cases origin with
    | some o => exact Option.some.inj hbound
    | none => cases hbound
  | none =>
    cases origin with
    | some o => cases hbound
    | none =>
      have hsteps : steps p.segments = p.segments := hp.steps_drop 0
      unfold Scope.baseOrigin
      cases s.doc with
      | none => rfl
      | some doc =>
        cases doc <;> simp [DocSource.resolve, DocSource.fragment, Resolved.value?, Origin.value?,
          hsteps]

end Reading

/-! ## Rows -/

/-- The value at the path is the one at its origin, and an object if it has several. -/
def Origin.Traces (ρ : Fragment → Json) (p : Path) (row : Json) : Origin → Prop
  | .mixed => ∃ es, row.at? p.segments = some (.obj es)
  | o => row.at? p.segments = o.value? ρ

section Rows

variable {p : Path} {ρ : Fragment → Json}

/-- One more entry keeps track of where the value comes from. -/
lemma Origin.Traces.after {row : Json} {o : Origin} {e : Entry} (h : o.Traces ρ p row)
    (ho : row.Open e.name.segments) : (o.after p e).Traces ρ p (e.setIn ρ row) := by
  unfold Origin.after
  by_cases hw : p.isWithin e.name
  · -- The path leads to the entry or into it.
    obtain ⟨rest, hrest⟩ := Path.isWithin_iff.1 hw
    rw [if_pos hw]
    simp only [Origin.below, Traces, Origin.value?, Entry.setIn, ← hrest, List.drop_left,
      Json.at?_set_append]
  · rw [if_neg hw]
    have hwithin : ¬ e.name.segments <+: p.segments := fun h => hw (Path.isWithin_iff.2 h)
    by_cases hb : e.name.isWithin p
    · -- The entry is set strictly below the path.
      obtain ⟨rest, hrest⟩ := Path.isWithin_iff.1 hb
      have hne : rest ≠ [] := by
        rintro rfl
        rw [List.append_nil] at hrest
        exact hwithin (hrest ▸ List.prefix_rfl)
      rw [if_pos hb]
      simp only [Traces, Entry.setIn, ← hrest]
      exact Json.at?_set_above _ _ hne _ _
    · rw [if_neg hb]
      have hbelow : ¬ p.segments <+: e.name.segments := fun h => hb (Path.isWithin_iff.2 h)
      have hat : (e.setIn ρ row).at? p.segments = row.at? p.segments :=
        Json.at?_set_apart (.inl ho) hwithin hbelow
      cases o <;> simpa only [Traces, hat] using h

/-- All entries together keep track of where the value comes from. -/
lemma Origin.Traces.foldl {es : List Entry} {row : Json} {o : Origin} (h : o.Traces ρ p row)
    (hf : Entry.Fits ρ es row) :
    (es.foldl (Origin.after p) o).Traces ρ p (es.foldl (Entry.setIn ρ) row) := by
  induction es generalizing row o with
  | nil => exact h
  | cons e es ih => exact ih (h.after hf.1) hf.2

/-- The row has the value at the origin of the path. -/
lemma Scope.traces_row {s : Scope} (hp : p.IsDotted) (hf : s.Fits ρ) :
    (s.rowOrigin p).Traces ρ p (s.row ρ) := by
  refine Origin.Traces.foldl ?_ hf
  unfold Scope.baseOrigin Scope.base
  cases s.doc with
  | some doc => rfl
  | none =>
    cases hs : p.segments with
    | nil => exact absurd hs hp.1
    | cons k ks =>
      simp only [Origin.Traces, hs]
      rfl

/-- Values without arrays fit every scope. -/
lemma Scope.fits_of_open (s : Scope) (h : ∀ f ks, (ρ f).Open ks) : s.Fits ρ := by
  have hfits (es : List Entry) : ∀ row : Json, (∀ ks, row.Open ks) → Entry.Fits ρ es row := by
    induction es with
    | nil => exact fun _ _ => trivial
    | cons e es ih => exact fun row hr => ⟨hr _, ih _ (Json.open_set _ (h e.value) hr)⟩
  refine hfits s.entries _ fun ks => ?_
  unfold Scope.base
  cases s.doc with
  | none => exact Json.open_empty ks
  | some doc => exact h _ ks

end Rows

/-! ## Coherence -/

namespace Scope

/-- What is read comes from one place. -/
lemma readOrigin_ne_mixed (s : Scope) (p : Path) : s.readOrigin p ≠ .mixed := by
  unfold readOrigin
  cases h : s.bindings.reverse.findSome? (·.origin? p) with
  | none =>
    unfold baseOrigin
    cases s.doc <;> exact nofun
  | some o =>
    obtain ⟨b, _, hb⟩ := List.exists_of_findSome?_eq_some h
    unfold Binding.origin? at hb
    split at hb
    · cases hb
      exact nofun
    · cases hb

variable {s : Scope} {p : Path} (hp : p.IsDotted)

include hp

/-- Reading and row have the same value if they take it from the same place. -/
lemma value?_eq_of_origin_eq (h : s.readOrigin p = s.rowOrigin p) {ρ : Fragment → Json}
    (hf : s.Fits ρ) : (s.resolve p false).value? ρ = (s.row ρ).at? p.segments := by
  have htraces := traces_row hp hf
  rw [value?_resolve hp ρ s]
  rw [← h] at htraces
  have hmixed := s.readOrigin_ne_mixed p
  cases ho : s.readOrigin p with
  | mixed => exact absurd ho hmixed
  | nothing =>
    rw [ho] at htraces
    exact htraces.symm
  | within f rest =>
    rw [ho] at htraces
    exact htraces.symm

/-- If reading and row take the value from different places, some values tell them apart. -/
lemma exists_value?_ne (h : s.readOrigin p ≠ s.rowOrigin p) :
    ∃ ρ, s.Fits ρ ∧ (s.resolve p false).value? ρ ≠ (s.row ρ).at? p.segments := by
  classical
  have hmark (rest : List String) (ks : List String) :
      (Json.set rest (.bool true) (.obj [])).Open ks :=
    Json.open_set rest (Json.open_bool true) Json.open_empty ks
  cases ho : s.rowOrigin p with
  | mixed =>
    -- The row has an object where every value is null.
    have hf : s.Fits fun _ => .null := s.fits_of_open fun _ => Json.open_null
    obtain ⟨es, hes⟩ := ho ▸ traces_row hp hf
    refine ⟨_, hf, ?_⟩
    rw [value?_resolve hp, hes]
    cases s.readOrigin p with
    | within f rest => cases rest <;> exact nofun
    | _ => exact nofun
  | within f rest =>
    -- Only the place that the row takes its value from holds true.
    let ρ (g : Fragment) : Json := if g = f then Json.set rest (.bool true) (.obj []) else .null
    have hf : s.Fits ρ := s.fits_of_open fun g ks => by
      by_cases hg : g = f
      · simpa only [ρ, if_pos hg] using hmark rest ks
      · simpa only [ρ, if_neg hg] using Json.open_null ks
    have hrow : (s.row ρ).at? p.segments = some (.bool true) := by
      have htraces := ho ▸ traces_row hp hf
      simpa only [Origin.Traces, Origin.value?, ρ, if_true, Json.at?_set_self] using htraces
    refine ⟨ρ, hf, ?_⟩
    rw [value?_resolve hp, hrow]
    cases hr : s.readOrigin p with
    | within g rest' =>
      by_cases hg : g = f
      · subst hg
        intro hvalue
        simp only [Origin.value?, ρ, if_true] at hvalue
        exact h (by rw [ho, hr, Json.eq_of_at?_set_bool hvalue])
      · simp only [Origin.value?, ρ, if_neg hg]
        cases rest' <;> exact nofun
    | _ => exact nofun
  | nothing =>
    cases hr : s.readOrigin p with
    | mixed => exact absurd hr (s.readOrigin_ne_mixed p)
    | nothing => exact absurd (hr.trans ho.symm) h
    | within f rest =>
      have hf : s.Fits fun _ => Json.set rest (.bool true) (.obj []) :=
        s.fits_of_open fun _ => hmark rest
      have hrow := ho ▸ traces_row hp hf
      refine ⟨_, hf, ?_⟩
      rw [value?_resolve hp, hr, hrow, Origin.value?, Json.at?_set_self]
      exact nofun

end Scope

/-- What a path stands for has, for all values, the value at the path in the row exactly if reading
and row take it from the same place: the last binding in the order of reading that the path leads to
or into is the last entry set in the row to which it does, and nothing is set below the path
afterwards. -/
theorem resolve_agrees_with_row_iff (s : Scope) {p : Path} (hp : p.IsDotted) :
    (∀ ρ, s.Fits ρ → (s.resolve p false).value? ρ = (s.row ρ).at? p.segments) ↔
      s.readOrigin p = s.rowOrigin p := by
  constructor
  · intro h
    by_contra hne
    obtain ⟨ρ, hf, hρ⟩ := Scope.exists_value?_ne hp hne
    exact hρ (h ρ hf)
  · exact fun h _ hf => Scope.value?_eq_of_origin_eq hp h hf

/-- The documents that a lookup finds beside the elements of another array. -/
def stockedItems : Scope where
  doc := some (.column "base" "data")
  computed := [⟨⟨["total"]⟩, Fragment.text "1", false⟩]
  lookups := [⟨⟨["inv"]⟩, "inventory_1", none⟩]
  unwinds := [⟨⟨["tags"]⟩, "unwind_1", some ⟨["pos"]⟩⟩]

theorem stockedItems_agrees : Path.IsDotted ⟨["inv", "qty"]⟩ ∧
    ∀ ρ, stockedItems.Fits ρ →
      (stockedItems.resolve ⟨["inv", "qty"]⟩ false).value? ρ =
        (stockedItems.row ρ).at? ["inv", "qty"] := by
  have hp : Path.IsDotted ⟨["inv", "qty"]⟩ := by decide
  exact ⟨hp, (resolve_agrees_with_row_iff stockedItems hp).2 rfl⟩

/-- The drafts that stages lead to. -/
def Draft.Reached (b : Draft) : Prop :=
  ∃ t o collection stages e,
    ((Draft.ofCollection collection baseAlias [] >>= Draft.stages stages).run (Env.of t o)).run {} =
      .ok b e

/-- After the documents of a lookup are unwound, a field of them is still read in the array. -/
theorem unwound_lookup_disagrees : ∃ b : Draft, b.Reached ∧ ∃ ρ, b.scope.Fits ρ ∧
    (b.scope.resolve ⟨["inv", "qty"]⟩ false).value? ρ ≠ (b.scope.row ρ).at? ["inv", "qty"] := by
  refine ⟨_, ⟨{}, {}, "orders", [.lookup ⟨"inventory", ⟨["inv"]⟩, ⟨["item"]⟩, ⟨["sku"]⟩⟩,
    .unwind ⟨⟨["inv"]⟩, none, false⟩], _, rfl⟩, ?_⟩
  refine Scope.exists_value?_ne (p := ⟨["inv", "qty"]⟩) (by decide) ?_
  -- The reading takes the documents of the lookup, the row the element of the unwind.
  change Origin.within (.column "inventory_1" "docs") ["qty"] ≠
    Origin.within (.column "unwind_1" "value") ["qty"]
  simp [Fragment.column, Fragment.ofToken]

end PipelineSql
