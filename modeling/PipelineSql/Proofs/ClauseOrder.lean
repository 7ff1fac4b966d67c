import PipelineSql.Compile
import PipelineSql.Proofs.Yields

/-!
# The order of clauses

A query evaluates its clauses in a fixed order: rows are joined and filtered, then grouped, then
windowed, then sorted and cut. A stage may add to a clause only while nothing that comes later in
that order has been decided. Where something has, the query becomes a subquery, and the stage adds
to the fresh query around it.

Main result: every stage extends a draft that is still open to the extension, and in every reachable
draft the flags say what the clauses are.
-/

namespace PipelineSql

/-! ## Sort terms that are aliases -/

/-- What a path stands for in an `ORDER BY` and elsewhere: the same, or a value in both. -/
inductive Resolved.Alike : Option Resolved → Option Resolved → Prop where
  | same {r} : Alike r r
  | value {f g : Fragment} {json : Bool} : Alike (some (.value f json)) (some (.value g json))

lemma Column.resolve?_alike (c : Column) (path : Path) :
    Resolved.Alike (c.resolve? true path) (c.resolve? false path) := by
  by_cases hname : c.name = path
  · simp only [Column.resolve?, resolveIn, if_pos hname]
    exact .value
  · simp only [Column.resolve?, hname, decide_false, Bool.and_false]
    exact .same

lemma Column.findSome?_alike (cs : List Column) (path : Path) :
    Resolved.Alike (cs.findSome? (·.resolve? true path)) (cs.findSome? (·.resolve? false path)) := by
  induction cs with
  | nil => exact .same
  | cons c cs ih =>
    have hc := c.resolve?_alike path
    rw [List.findSome?_cons, List.findSome?_cons]
    generalize c.resolve? true path = r, c.resolve? false path = r' at hc
    cases hc with
    | @same r =>
      cases r with
      | none => exact ih
      | some _ => exact .same
    | value => exact .value

/-- A place is the same in an `ORDER BY`, where only whole columns go by their names. -/
lemma Scope.resolve_place {s : Scope} {path : Path} {own : Bool} {l : Location}
    (h : s.resolve path own = .place l) : s.resolve path false = .place l := by
  cases own with
  | false => exact h
  | true =>
    have hcols := Column.findSome?_alike s.columns.reverse path
    simp only [Scope.resolve] at h ⊢
    generalize s.columns.reverse.findSome? (·.resolve? true path) = r,
      s.columns.reverse.findSome? (·.resolve? false path) = r' at hcols h
    cases hcols with
    | same => exact h
    | value =>
      -- A binding in front of the columns answers in both, and a column would be a value.
      revert h
      cases s.computed.reverse.findSome? (·.resolve? path) <;>
        cases s.lookups.reverse.findSome? (·.resolve? path) <;>
        cases s.unwinds.reverse.findSome? (·.resolve? path) <;> simp

namespace Draft

variable {b b₀ b' : Draft} {env : Env}

lemma isAlias_iff {f : Fragment} : isAlias f = true ↔ ∃ name, f = Fragment.ident name := by
  constructor
  · intro h
    unfold isAlias at h
    split at h
    · next name => exact ⟨name, rfl⟩
    · cases h
  · rintro ⟨name, rfl⟩
    rfl

/-- A fragment of several pieces is no alias. -/
lemma isAlias_append {f g : Fragment} (hf : f ≠ []) (hg : g ≠ []) : isAlias (f ++ g) = false := by
  apply Bool.eq_false_iff.2
  intro h
  obtain ⟨name, hname⟩ := isAlias_iff.1 h
  have hlength : f.length + g.length = 1 := by rw [← List.length_append, hname]; rfl
  have hf := List.length_pos_iff.2 hf
  have hg := List.length_pos_iff.2 hg
  omega

lemma isAlias_call (name : String) (args : List Fragment) :
    isAlias (Fragment.call name args) = false :=
  isAlias_append (by simp [Fragment.text]) (by simp [Fragment.paren])

lemma isAlias_dotFragment {l : Location} (h : l.steps ≠ []) : isAlias l.dotFragment = false := by
  unfold Location.dotFragment
  obtain ⟨s, ss, hs⟩ := List.exists_cons_of_ne_nil h
  rw [hs]
  cases hdoc : l.doc with
  | nil =>
    cases ss with
    | nil => rfl
    | cons s' ss => exact isAlias_append (f := [.token (.step s)]) (by simp) (by simp [Fragment.ofToken])
  | cons p ps => exact isAlias_append (by simp) (by simp [Fragment.ofToken])

/-- A scalar that is extracted is no alias. -/
lemma isAlias_scalar (d : Dialect) (l : Location) (type : Option JsonType) :
    isAlias (l.scalar d type) = false := by
  unfold Location.scalar
  split
  · exact isAlias_append (by simp [Fragment.text]) (by simp [Fragment.paren])
  · split
    · next hdot =>
      have hsteps : ∃ s, s ∈ l.steps := List.exists_mem_of_ne_nil _ (by simp_all)
      refine isAlias_append ?_ (by simp [Fragment.text])
      simp [Location.dotFragment, Fragment.ofToken, hsteps]
    · unfold jsonValue
      split
      · exact isAlias_append (by simp [Fragment.text]) (by simp [Fragment.paren])
      · exact isAlias_call _ _
      · exact isAlias_call _ _
      · exact isAlias_append (by simp [Fragment.text]) (by simp [Fragment.paren])

/-- The flag of a sort value says whether it is an alias. -/
lemma sortValue_snd (env : Env) (scope : Scope) (path : Path) (own : Bool) :
    (sortValue env scope path own).2 = isAlias (sortValue env scope path own).1 := by
  unfold sortValue
  split
  · rfl
  · next l hl =>
    split
    · next hdot =>
      have hsteps : l.steps ≠ [] := by simp_all
      exact (isAlias_dotFragment hsteps).symm
    · simp only [Env.fieldValue, Env.resolve, Scope.resolve_place hl]
      exact (isAlias_scalar _ _ _).symm
  · rfl

/-- Is any sort term an alias? -/
def sortsByAlias (terms : List OrderTerm) : Bool :=
  terms.any fun t => isAlias t.value

/-- The flag of sort terms says whether one of them is an alias. -/
lemma orderTerms_snd (env : Env) (scope : Scope) (keys : List SortKey) (own : Bool) :
    (orderTerms env scope keys own).2 = sortsByAlias (orderTerms env scope keys own).1 := by
  simp only [orderTerms, sortsByAlias, List.any_map, List.map_map]
  congr 1
  funext k
  simp only [Function.comp_apply, sortValue_snd, orderTerm]
  cases k.order <;> rfl

/-- In the row of a subquery no value is an alias. -/
lemma isAlias_resolve_wrapped {scope : Scope} {label data : String} {path : Path} {own : Bool}
    {f : Fragment} {json : Bool}
    (h : (scope.wrapped label data).resolve path own = .value f json) : isAlias f = false := by
  unfold Scope.wrapped at h
  split at h
  · simp [Scope.document, Scope.resolve, DocSource.resolve] at h
  · simp only [Scope.resolve, List.reverse_nil, List.findSome?_nil, Option.orElse_eq_orElse,
      Option.orElse_eq_or, Option.none_or] at h
    split at h
    · next r _ hr =>
      obtain ⟨c, hc, hcr⟩ := List.exists_of_findSome?_eq_some hr
      obtain ⟨e, _, rfl⟩ := List.mem_map.1 (List.mem_reverse.1 hc)
      simp only [Column.resolve?, resolveIn] at hcr
      split at hcr
      · cases hcr
        cases h
        rfl
      · obtain ⟨_, _, rfl⟩ := Option.map_eq_some_iff.1 hcr
        cases h
    · next hdoc => cases hdoc
    · cases h

/-- In the row of a subquery no sort term is an alias. -/
lemma sortsByAlias_wrapped (env : Env) (scope : Scope) (keys : List SortKey)
    (label data : String) (own : Bool) :
    sortsByAlias (orderTerms env (scope.wrapped label data) keys own).1 = false := by
  rw [← orderTerms_snd]
  simp only [orderTerms, List.any_map, List.any_eq_false]
  intro k _
  simp only [Function.comp_apply, sortValue]
  split
  · next f json hf => simp [isAlias_resolve_wrapped hf]
  · split <;> simp
  · simp

/-! ## Drafts that are open to an extension -/

/-- Rows can be joined and filtered. -/
structure TakesRows (b : Draft) : Prop where
  notGrouped : b.grouped = false
  notWindowed : b.windowed = false
  notCut : b.query.rows.isLimited = false

/-- Groups can be filtered. -/
structure TakesGroupFilters (b : Draft) : Prop where
  grouped : b.grouped = true
  notWindowed : b.windowed = false
  notCut : b.query.rows.isLimited = false

/-- Rows can be grouped. -/
structure TakesGroups (b : Draft) : Prop extends TakesRows b where
  notSorted : b.query.orderBy = []

/-- Rows can be sorted. -/
structure TakesOrder (b : Draft) : Prop where
  notCut : b.query.rows.isLimited = false

/-- The select list can be replaced. -/
structure TakesShape (b : Draft) : Prop where
  notGrouped : b.grouped = false
  notWindowed : b.windowed = false
  notByAlias : sortsByAlias b.query.orderBy = false

/-- Values of window functions can be added. -/
structure TakesWindows (b : Draft) : Prop where
  notGrouped : b.grouped = false
  notCut : b.query.rows.isLimited = false

/-- The second draft is fresh: all that its query has is the finished query of the first as its
source, and possibly an order. -/
structure Wraps (env : Env) (b b₀ : Draft) : Prop where
  query : ∃ label terms, b₀.query =
    { source := some (.subquery
        { b.query with items := b.scope.selectItems env.dialect env.dataColumn } label)
      orderBy := terms }
  grouped : b₀.grouped = false
  windowed : b₀.windowed = false
  sortedByAlias : b₀.sortedByAlias = false
  notByAlias : sortsByAlias b₀.query.orderBy = false
  ctes : b₀.ctes = b.ctes

/-- The second draft is open to an extension: it is the first if that is open, and wraps it
otherwise. -/
structure Readies (env : Env) (Takes : Draft → Prop) (b b₀ : Draft) : Prop where
  takes : Takes b₀
  keptOrWrapped : Takes b ∧ b₀ = b ∨ ¬ Takes b ∧ Wraps env b b₀

/-- The draft with groups: a clause of groups, conditions on rows and groups, and an order of the
groups that does not go by aliases. -/
def Aggregates (b b' : Draft) : Prop :=
  ∃ filters terms having orderBy scope ordering, sortsByAlias orderBy = false ∧
    b' = { b with
      query := { b.query with
        filters := b.query.filters ++ filters
        groupBy := terms
        having := b.query.having ++ having
        orderBy }
      grouped := true
      scope
      ordering }

/-- How a stage extends a draft. -/
def Extends (env : Env) : Stage → Draft → Draft → Prop
  | .filter _, b, b' =>
    b.TakesGroupFilters ∧ (∃ c, b' = b.filterGroups c) ∨
      ¬ b.TakesGroupFilters ∧ ∃ b₀, Readies env TakesRows b b₀ ∧ ∃ c, b' = b₀.filter c
  | .redact _, b, b' => ∃ b₀, Readies env TakesRows b b₀ ∧ ∃ c, b' = b₀.filter c
  | .lookup _, b, b' | .unwind _, b, b' | .graphLookup _, b, b' =>
    ∃ b₀, Readies env TakesRows b b₀ ∧ ∃ j scope ctes, b' = { b₀.join j with scope, ctes }
  | .group _, b, b' | .count _, b, b' | .bucket _, b, b' =>
    ∃ b₀, Readies env TakesGroups b b₀ ∧ Aggregates b₀ b'
  | .bucketAuto _, b, b' =>
    ∃ b₀ scope b₁, Readies env TakesGroups b b₀ ∧ Wraps env (b₀.withScope scope) b₁ ∧
      TakesGroups b₁ ∧ Aggregates b₁ b'
  | .sort .., b, b' | .sample _, b, b' =>
    ∃ b₀, Readies env TakesOrder b b₀ ∧ ∃ terms rows ordering, b' = { b₀ with
      query := { b₀.query with orderBy := terms, rows }
      sortedByAlias := sortsByAlias terms
      ordering }
  | .project _, b, b' | .unset _, b, b' | .replaceRoot _, b, b' =>
    ∃ b₀, Readies env TakesShape b b₀ ∧ ∃ scope, b' = b₀.withScope scope
  | .limit _, b, b' | .skip _, b, b' => ∃ rows, b' = { b with query := { b.query with rows } }
  | .addFields _, b, b' => ∃ b₀, (b₀ = b ∨ Wraps env b b₀) ∧ ∃ scope, b' = b₀.withScope scope
  | .windowFields _, b, b' =>
    ∃ b₀, TakesWindows b₀ ∧ (b₀ = b ∨ Wraps env b b₀) ∧
      ∃ scope, b' = { b₀.withScope scope with windowed := true }
  | .facet _, _, b' | .unionWith .., _, b' => ∃ source scope ctes, b' = ofSource source scope ctes
  | .lookupPipeline .., _, _ | .merge _, _, _ | .out _, _, _ => False

/-- The flags of a draft say what its clauses are. -/
structure Sound (b : Draft) : Prop where
  notBoth : ¬ (b.grouped = true ∧ b.windowed = true)
  groupBy : b.query.groupBy ≠ [] → b.grouped = true
  having : b.query.having ≠ [] → b.grouped = true
  sortedByAlias : b.sortedByAlias = sortsByAlias b.query.orderBy

/-! ## What a step keeps -/

lemma sound_ofSource (source : Source) (scope : Scope) (ctes : List Cte) :
    (ofSource source scope ctes).Sound where
  notBoth := by simp [ofSource]
  groupBy := by simp [ofSource]
  having := by simp [ofSource]
  sortedByAlias := rfl

lemma Wraps.sound (h : Wraps env b b₀) : b₀.Sound := by
  obtain ⟨label, terms, hquery⟩ := h.query
  refine ⟨by simp [h.grouped], ?_, ?_, by rw [h.sortedByAlias, h.notByAlias]⟩
  · simp [hquery]
  · simp [hquery]

lemma Wraps.takesRows (h : Wraps env b b₀) : b₀.TakesRows := by
  obtain ⟨label, terms, hquery⟩ := h.query
  refine ⟨h.grouped, h.windowed, ?_⟩
  rw [hquery]
  rfl

lemma Readies.sound {Takes : Draft → Prop} (h : Readies env Takes b b₀) (hb : b.Sound) :
    b₀.Sound := by
  rcases h.keptOrWrapped with ⟨_, rfl⟩ | ⟨_, hwraps⟩
  · exact hb
  · exact hwraps.sound

/-- Groups on a draft that takes them. -/
lemma Aggregates.sound (h : Aggregates b b') (hb : b.Sound) (ht : b.TakesGroups) : b'.Sound := by
  obtain ⟨filters, terms, having, orderBy, scope, ordering, horder, rfl⟩ := h
  have hflag : b.sortedByAlias = false := by
    rw [hb.sortedByAlias, ht.notSorted]
    rfl
  exact ⟨by simp [ht.notWindowed], fun _ => rfl, fun _ => rfl, by rw [hflag, horder]⟩

/-- A stage keeps the flags in step with the clauses. -/
lemma Extends.sound {s : Stage} (h : Extends env s b b') (hb : b.Sound) : b'.Sound := by
  cases s with
  | filter test =>
    rcases h with ⟨ht, c, rfl⟩ | ⟨_, b₀, hready, c, rfl⟩
    · exact ⟨hb.notBoth, hb.groupBy, fun _ => ht.grouped, hb.sortedByAlias⟩
    · have h₀ := hready.sound hb
      exact ⟨h₀.notBoth, h₀.groupBy, h₀.having, h₀.sortedByAlias⟩
  | redact decision =>
    obtain ⟨b₀, hready, c, rfl⟩ := h
    have h₀ := hready.sound hb
    exact ⟨h₀.notBoth, h₀.groupBy, h₀.having, h₀.sortedByAlias⟩
  | lookup spec | unwind spec | graphLookup spec =>
    obtain ⟨b₀, hready, j, scope, ctes, rfl⟩ := h
    have h₀ := hready.sound hb
    exact ⟨h₀.notBoth, h₀.groupBy, h₀.having, h₀.sortedByAlias⟩
  | group spec | count spec | bucket spec =>
    obtain ⟨b₀, hready, hagg⟩ := h
    exact hagg.sound (hready.sound hb) hready.takes
  | bucketAuto spec =>
    obtain ⟨b₀, scope, b₁, _, hwraps, ht, hagg⟩ := h
    exact hagg.sound hwraps.sound ht
  | sort keys hint | sample n =>
    obtain ⟨b₀, hready, terms, rows, ordering, rfl⟩ := h
    have h₀ := hready.sound hb
    exact ⟨h₀.notBoth, h₀.groupBy, h₀.having, rfl⟩
  | project fields | unset names | replaceRoot root =>
    obtain ⟨b₀, hready, scope, rfl⟩ := h
    have h₀ := hready.sound hb
    exact ⟨h₀.notBoth, h₀.groupBy, h₀.having, h₀.sortedByAlias⟩
  | limit n | skip n =>
    obtain ⟨rows, rfl⟩ := h
    exact ⟨hb.notBoth, hb.groupBy, hb.having, hb.sortedByAlias⟩
  | addFields fields =>
    obtain ⟨b₀, hkept, scope, rfl⟩ := h
    have h₀ : b₀.Sound := by
      rcases hkept with rfl | hwraps
      · exact hb
      · exact hwraps.sound
    exact ⟨h₀.notBoth, h₀.groupBy, h₀.having, h₀.sortedByAlias⟩
  | windowFields spec =>
    obtain ⟨b₀, ht, hkept, scope, rfl⟩ := h
    have h₀ : b₀.Sound := by
      rcases hkept with rfl | hwraps
      · exact hb
      · exact hwraps.sound
    exact ⟨by simp [withScope, ht.notGrouped], h₀.groupBy, h₀.having, h₀.sortedByAlias⟩
  | facet facets | unionWith source nested =>
    obtain ⟨source, scope, ctes, rfl⟩ := h
    exact sound_ofSource source scope ctes
  | lookupPipeline | merge | out => exact h.elim

/-! ## What a stage yields -/

open Render

lemma acceptsRows_iff : b.acceptsRows = true ↔ b.TakesRows := by
  simp only [acceptsRows, Bool.and_eq_true, Bool.not_eq_true', and_assoc]
  exact ⟨fun ⟨hg, hw, hc⟩ => ⟨hg, hw, hc⟩, fun h => ⟨h.notGrouped, h.notWindowed, h.notCut⟩⟩

lemma acceptsGrouping_iff : b.acceptsGrouping = true ↔ b.TakesGroups := by
  simp only [acceptsGrouping, Bool.and_eq_true, acceptsRows_iff, List.isEmpty_iff]
  exact ⟨fun ⟨hr, ho⟩ => ⟨hr, ho⟩, fun h => ⟨h.toTakesRows, h.notSorted⟩⟩

lemma acceptsReshape_iff (hb : b.Sound) : b.acceptsReshape = true ↔ b.TakesShape := by
  simp only [acceptsReshape, Bool.and_eq_true, Bool.not_eq_true', and_assoc, hb.sortedByAlias]
  exact ⟨fun ⟨hg, hw, ha⟩ => ⟨hg, hw, ha⟩, fun h => ⟨h.notGrouped, h.notWindowed, h.notByAlias⟩⟩

/-- The fresh draft around the finished query. -/
def around (b : Draft) (env : Env) (label : String) : Draft :=
  ofSource (.subquery { b.query with
    items := b.scope.selectItems env.dialect env.dataColumn } label)
    (b.scope.wrapped label env.dataColumn) b.ctes

lemma yields_wrapAs (b : Draft) :
    b.wrapAs.Yields env fun r => ∃ label, r = (b.around env label, label) := by
  unfold wrapAs finish
  refine yields_then fun label => ?_
  simp only [bind_assoc, pure_bind]
  refine yields_read (yields_read ?_)
  exact yields_pure ⟨label, rfl⟩

lemma wraps_around (b : Draft) (env : Env) (label : String) : Wraps env b (b.around env label) where
  query := ⟨label, [], rfl⟩
  grouped := rfl
  windowed := rfl
  sortedByAlias := rfl
  notByAlias := rfl
  ctes := rfl

lemma takesGroups_around (b : Draft) (env : Env) (label : String) :
    (b.around env label).TakesGroups :=
  ⟨(wraps_around b env label).takesRows, rfl⟩

lemma yields_wrap (b : Draft) : b.wrap.Yields env (Wraps env b) := by
  unfold wrap
  refine yields_bind (yields_wrapAs b) ?_
  rintro _ ⟨label, rfl⟩
  refine yields_ite (fun _ => yields_pure (wraps_around b env label)) fun _ => ?_
  refine yields_read (yields_pure ?_)
  exact { wraps_around b env label with
    query := ⟨label, _, rfl⟩
    notByAlias := sortsByAlias_wrapped env b.scope b.ordering label _ false }

lemma yields_wrapIf (b : Draft) (needed : Bool) :
    (b.wrapIf needed).Yields env fun b₀ =>
      needed = false ∧ b₀ = b ∨ needed = true ∧ Wraps env b b₀ := by
  unfold wrapIf
  cases needed with
  | false => exact yields_pure (.inl ⟨rfl, rfl⟩)
  | true => exact (yields_wrap b).imp fun b₀ h => .inr ⟨rfl, h⟩

/-- Wrapping where that is needed makes a draft ready. -/
lemma yields_ready {Takes : Draft → Prop} {accepts : Bool} (haccepts : accepts = true ↔ Takes b)
    (htakes : ∀ b₀, Wraps env b b₀ → Takes b₀) :
    (b.wrapIf !accepts).Yields env (Readies env Takes b) := by
  refine (yields_wrapIf b _).imp ?_
  rintro b₀ (⟨hneeded, rfl⟩ | ⟨hneeded, hwraps⟩)
  · have ht := haccepts.1 (by simpa using hneeded)
    exact ⟨ht, .inl ⟨ht, rfl⟩⟩
  · have ht : ¬ Takes b := fun h => by simp [haccepts.2 h] at hneeded
    exact ⟨htakes b₀ hwraps, .inr ⟨ht, hwraps⟩⟩

lemma yields_rowsReady (b : Draft) : b.rowsReady.Yields env (Readies env TakesRows b) :=
  yields_ready acceptsRows_iff fun _ h => h.takesRows

lemma yields_reshapeReady (hb : b.Sound) : b.reshapeReady.Yields env (Readies env TakesShape b) :=
  yields_ready (acceptsReshape_iff hb) fun _ h => ⟨h.grouped, h.windowed, h.notByAlias⟩

lemma yields_uncut (b : Draft) : b.uncut.Yields env (Readies env TakesOrder b) := by
  have haccepts : (!b.query.rows.isLimited) = true ↔ b.TakesOrder := by
    rw [Bool.not_eq_true']
    exact ⟨fun h => ⟨h⟩, fun h => h.notCut⟩
  have h : (b.wrapIf !!b.query.rows.isLimited).Yields env (Readies env TakesOrder b) :=
    yields_ready haccepts fun _ h => ⟨h.takesRows.notCut⟩
  rwa [Bool.not_not] at h

/-- Rows are grouped in the query itself if that takes groups, and in the query around it else. -/
lemma yields_groupingReady_cases (b : Draft) :
    b.groupingReady.Yields env fun b₀ =>
      b.TakesGroups ∧ b₀ = b ∨ ¬ b.TakesGroups ∧ ∃ label, b₀ = b.around env label := by
  unfold groupingReady
  refine yields_ite (fun h => yields_pure ?_) fun h => ?_
  · exact .inl ⟨acceptsGrouping_iff.1 h, rfl⟩
  · refine yields_bind (yields_wrapAs b) ?_
    rintro _ ⟨label, rfl⟩
    exact yields_pure (.inr ⟨fun ht => h (acceptsGrouping_iff.2 ht), label, rfl⟩)

lemma yields_groupingReady (b : Draft) :
    b.groupingReady.Yields env (Readies env TakesGroups b) := by
  refine (yields_groupingReady_cases b).imp ?_
  rintro b₀ (⟨ht, rfl⟩ | ⟨ht, label, rfl⟩)
  · exact ⟨ht, .inl ⟨ht, rfl⟩⟩
  · exact ⟨takesGroups_around b env label, .inr ⟨ht, wraps_around b env label⟩⟩

lemma yields_filterStage (b : Draft) (test : Expr) :
    (b.filterStage test).Yields env (Extends env (.filter test) b) := by
  unfold filterStage
  refine yields_ite (fun h => ?_) fun h => ?_
  · have ht : b.TakesGroupFilters := by
      simp only [Bool.and_eq_true, Bool.not_eq_true', and_assoc] at h
      exact ⟨h.1, h.2.1, h.2.2⟩
    exact yields_then fun c => yields_pure (.inl ⟨ht, c, rfl⟩)
  · have ht : ¬ b.TakesGroupFilters := fun ht => h (by
      simp [ht.grouped, ht.notWindowed, ht.notCut])
    refine yields_bind (yields_rowsReady b) fun b₀ hready => ?_
    exact yields_then fun c => yields_pure (.inr ⟨ht, b₀, hready, c, rfl⟩)

lemma yields_redactStage (b : Draft) (decision : Expr) :
    (b.redactStage decision).Yields env (Extends env (.redact decision) b) := by
  unfold redactStage
  refine yields_then fun _ => ?_
  refine yields_bind (yields_rowsReady b) fun b₀ hready => ?_
  exact yields_then fun value => yields_pure ⟨b₀, hready, _, rfl⟩

lemma yields_lookupStage (b : Draft) (l : Lookup) :
    (b.lookupStage l).Yields env (Extends env (.lookup l) b) := by
  unfold lookupStage
  refine yields_bind (yields_rowsReady b) fun b₀ hready => ?_
  refine yields_then fun label => yields_then fun inner => yields_then fun env' => ?_
  exact yields_pure ⟨b₀, hready, _, _, _, rfl⟩

lemma yields_unwindStage (b : Draft) (u : Unwind) :
    (b.unwindStage u).Yields env (Extends env (.unwind u) b) := by
  unfold unwindStage
  refine yields_bind (yields_rowsReady b) fun b₀ hready => yields_then fun env' => ?_
  split
  · exact yields_unsupported _
  · refine yields_then fun label => ?_
    exact yields_pure ⟨b₀, hready, _, _, _, rfl⟩

lemma yields_graphStage (b : Draft) (g : GraphLookup) :
    (b.graphStage g).Yields env (Extends env (.graphLookup g) b) := by
  unfold graphStage
  refine yields_then fun _ => ?_
  refine yields_bind (yields_rowsReady b) fun b₀ hready => ?_
  refine yields_then fun start => yields_then fun cte => yields_then fun walk => ?_
  refine yields_then fun _ => yields_then fun ranked => yields_then fun label => ?_
  exact yields_then fun env' => yields_pure ⟨b₀, hready, _, _, _, rfl⟩

lemma yields_sortStage (b : Draft) (keys : List SortKey) (hint : Option Nat) :
    (b.sortStage keys hint).Yields env (Extends env (.sort keys hint) b) := by
  unfold sortStage
  refine yields_bind (yields_uncut b) fun b₀ hready => yields_then fun env' => ?_
  have hflag := orderTerms_snd env' b₀.scope keys true
  generalize orderTerms env' b₀.scope keys true = sorted at hflag ⊢
  obtain ⟨terms, byAlias⟩ := sorted
  obtain rfl : byAlias = sortsByAlias terms := hflag
  exact yields_pure ⟨b₀, hready, terms, _, _, rfl⟩

lemma yields_sampleStage (b : Draft) (n : Nat) :
    (b.sampleStage n).Yields env (Extends env (.sample n) b) := by
  unfold sampleStage
  refine yields_bind (yields_uncut b) fun b₀ hready => ?_
  exact yields_pure ⟨b₀, hready, [{ value := randomKey }], _, _, rfl⟩

lemma yields_includeFields (b : Draft) (fields : List (Path × ProjectField)) :
    (b.includeFields fields).Yields env fun b' => ∃ scope, b' = b.withScope scope := by
  unfold includeFields
  exact yields_then fun columns => yields_pure ⟨_, rfl⟩

lemma yields_excludeFields (b : Draft) (names : List Path) (stage : String) :
    (b.excludeFields names stage).Yields env fun b' => ∃ scope, b' = b.withScope scope := by
  unfold excludeFields
  refine yields_ite (fun _ => ?_) fun _ => yields_pure ⟨_, rfl⟩
  refine yields_read (yields_ite (fun _ => ?_) fun _ => yields_pure ⟨_, rfl⟩)
  exact yields_then fun _ => yields_pure ⟨_, rfl⟩

lemma yields_projectStage (hb : b.Sound) (fields : List (Path × ProjectField)) :
    (b.projectStage fields).Yields env (Extends env (.project fields) b) := by
  unfold projectStage
  refine yields_bind (yields_reshapeReady hb) fun b₀ hready => ?_
  split
  · exact (yields_includeFields b₀ fields).imp fun b' h => ⟨b₀, hready, h⟩
  · exact (yields_excludeFields b₀ _ _).imp fun b' h => ⟨b₀, hready, h⟩

lemma yields_unsetStage (hb : b.Sound) (names : List Path) :
    (b.unsetStage names).Yields env (Extends env (.unset names) b) := by
  unfold unsetStage
  refine yields_bind (yields_reshapeReady hb) fun b₀ hready => ?_
  exact (yields_excludeFields b₀ _ _).imp fun b' h => ⟨b₀, hready, h⟩

lemma yields_replaceRootStage (hb : b.Sound) (root : Expr) :
    (b.replaceRootStage root).Yields env (Extends env (.replaceRoot root) b) := by
  unfold replaceRootStage
  refine yields_bind (yields_reshapeReady hb) fun b₀ hready => ?_
  exact yields_then fun doc => yields_pure ⟨b₀, hready, _, rfl⟩

lemma yields_addFieldsStage (b : Draft) (fields : List (Path × Expr)) :
    (b.addFieldsStage fields).Yields env (Extends env (.addFields fields) b) := by
  unfold addFieldsStage
  refine yields_bind (yields_wrapIf b _) fun b₀ hkept => yields_then fun added => ?_
  refine yields_pure ⟨b₀, ?_, _, rfl⟩
  exact hkept.imp And.right And.right

lemma yields_windowStage (b : Draft) (spec : WindowFields) :
    (b.windowStage spec).Yields env (Extends env (.windowFields spec) b) := by
  unfold windowStage
  refine yields_bind (yields_wrapIf b _) fun b₀ hkept => ?_
  refine yields_then fun partition => yields_then fun added => ?_
  refine yields_pure ⟨b₀, ?_, hkept.imp And.right And.right, _, rfl⟩
  rcases hkept with ⟨hneeded, rfl⟩ | ⟨_, hwraps⟩
  · simp only [Bool.or_eq_false_iff] at hneeded
    exact ⟨hneeded.1.1, hneeded.1.2⟩
  · exact ⟨hwraps.grouped, hwraps.takesRows.notCut⟩

/-! Aggregation keeps the order of its draft, or replaces it by that of the groups. -/

lemma TakesGroups.notByAlias (ht : b.TakesGroups) : sortsByAlias b.query.orderBy = false := by
  rw [ht.notSorted]
  rfl

lemma aggregates_grouping (ht : b.TakesGroups) (terms : List Fragment) (columns : List Column) :
    Aggregates b (b.grouping terms columns) :=
  ⟨[], terms, [], b.query.orderBy, { columns }, b.ordering, ht.notByAlias, by simp [grouping]⟩

lemma aggregates_requireRows (ht : b.TakesGroups) (terms : List Fragment) (columns : List Column) :
    Aggregates b (b.requireRows.grouping terms columns) :=
  ⟨[], terms, [.relation .gt "COUNT(*)" "0"], b.query.orderBy, { columns }, b.ordering,
    ht.notByAlias, by simp [grouping, requireRows, filterGroups]⟩

lemma yields_groupStage (b : Draft) (g : Group) :
    (b.groupStage g).Yields env (Extends env (.group g) b) := by
  unfold groupStage
  refine yields_bind (yields_groupingReady b) fun b₀ hready => ?_
  refine yields_then fun key => yields_then fun columns => yields_pure ⟨b₀, hready, ?_⟩
  split
  · exact aggregates_requireRows hready.takes _ _
  · exact aggregates_grouping hready.takes _ _

lemma yields_countStage (b : Draft) (field : Path) :
    (b.countStage field).Yields env (Extends env (.count field) b) := by
  unfold countStage
  refine yields_bind (yields_groupingReady b) fun b₀ hready => ?_
  exact yields_pure ⟨b₀, hready, aggregates_requireRows hready.takes _ _⟩

/-- Neither the identity nor the rank of a bucket is an alias. -/
lemma yields_bucketKey (spec : Bucket) (numeric asText : Bool) :
    (bucketKey spec numeric asText).Yields env fun key =>
      isAlias (key.rank.getD key.id) = false := by
  unfold bucketKey
  refine yields_inlined ?_
  refine yields_then fun subject => yields_then fun found => yields_then fun branches => ?_
  refine yields_then fun default => yields_then fun inRange => yields_pure ?_
  cases asText with
  | false => rfl
  | true => exact isAlias_call _ _

lemma aggregates_bucketed {key : BucketKey} (h : isAlias (key.rank.getD key.id) = false)
    (columns : List Column) : Aggregates b (b.bucketed key columns) := by
  refine ⟨[], [key.id], [], [{ value := key.rank.getD key.id, direction := some .ascending }],
    { columns := idColumn key.id false :: columns },
    if key.rank.isSome then b.ordering else [⟨Projection.idPath, .ascending⟩], ?_, ?_⟩
  · simp [sortsByAlias, h]
  · simp [bucketed, grouping]

/-- A condition on rows in front of the groups. -/
lemma Aggregates.of_filter {c : Condition} (h : Aggregates (b.filter c) b') : Aggregates b b' := by
  obtain ⟨filters, terms, having, orderBy, scope, ordering, horder, rfl⟩ := h
  exact ⟨c :: filters, terms, having, orderBy, scope, ordering, horder, by simp [filter]⟩

lemma yields_bucketStage (b : Draft) (spec : Bucket) :
    (b.bucketStage spec).Yields env (Extends env (.bucket spec) b) := by
  unfold bucketStage
  refine yields_bind (yields_groupingReady b) fun b₀ hready => ?_
  refine yields_warn_if ?_
  refine yields_bind (yields_within (yields_bucketKey spec _ _)) fun key hkey => ?_
  refine yields_then fun columns => yields_pure ⟨b₀, hready, ?_⟩
  split
  · exact (aggregates_bucketed hkey columns).of_filter
  · exact aggregates_bucketed hkey columns

lemma aggregates_groupedByNumber (b : Draft) (label : String) (columns : List Column) :
    Aggregates b (b.groupedByNumber label columns) := by
  refine ⟨[], [Fragment.column label "bucket"], [],
    [{ value := Fragment.column label "bucket", direction := some .ascending }],
    { columns := idColumn (bucketBounds label) true :: columns }, b.ordering, rfl, ?_⟩
  simp [groupedByNumber, grouping]

lemma yields_bucketAutoStage (b : Draft) (spec : BucketAuto) :
    (b.bucketAutoStage spec).Yields env (Extends env (.bucketAuto spec) b) := by
  unfold bucketAutoStage
  refine yields_then fun _ => yields_then fun _ => ?_
  refine yields_bind (yields_groupingReady b) fun b₀ hready => yields_then fun subject => ?_
  refine yields_bind (yields_wrapAs _) ?_
  rintro _ ⟨label, rfl⟩
  refine yields_then fun columns => yields_pure ?_
  have hwraps := wraps_around (b₀.numbered spec.buckets subject) env label
  exact ⟨b₀, _, _, hready, hwraps, takesGroups_around _ env label,
    aggregates_groupedByNumber _ label columns⟩

/-- The rows of a union are documents of one source. -/
lemma yields_unionStage (b : Draft) (source : String) (nested : Option (List Stage)) :
    (stage (.unionWith source nested) b).Yields env fun b' =>
      ∃ source label column ctes, b' = ofSource source (.document label column) ctes := by
  rw [stage]
  refine yields_then fun left => yields_then fun label => yields_then fun other => ?_
  refine yields_then fun other => yields_then fun right => yields_then fun label => ?_
  exact yields_then fun env' => yields_pure ⟨_, _, _, _, rfl⟩

/-- A stage extends a draft whose flags are right. -/
lemma yields_stage (hb : b.Sound) (s : Stage) : (stage s b).Yields env (Extends env s b) := by
  cases s with
  | filter test => rw [stage]; exact yields_filterStage b test
  | sort keys hint => rw [stage]; exact yields_sortStage b keys hint
  | limit n => rw [stage]; exact yields_pure ⟨_, rfl⟩
  | skip n => rw [stage]; exact yields_pure ⟨_, rfl⟩
  | sample n => rw [stage]; exact yields_sampleStage b n
  | lookup spec => rw [stage]; exact yields_lookupStage b spec
  | lookupPipeline => rw [stage]; exact yields_unsupported _
  | unwind spec => rw [stage]; exact yields_unwindStage b spec
  | redact decision => rw [stage]; exact yields_redactStage b decision
  | project fields => rw [stage]; exact yields_projectStage hb fields
  | addFields fields => rw [stage]; exact yields_addFieldsStage b fields
  | unset names => rw [stage]; exact yields_unsetStage hb names
  | replaceRoot root => rw [stage]; exact yields_replaceRootStage hb root
  | group spec => rw [stage]; exact yields_groupStage b spec
  | count field => rw [stage]; exact yields_countStage b field
  | bucket spec => rw [stage]; exact yields_bucketStage b spec
  | bucketAuto spec => rw [stage]; exact yields_bucketAutoStage b spec
  | windowFields spec => rw [stage]; exact yields_windowStage b spec
  | graphLookup spec => rw [stage]; exact yields_graphStage b spec
  | facet facets =>
    rw [stage]
    refine yields_then fun name => yields_then fun query => yields_then fun _ => ?_
    exact yields_then fun entries => yields_pure ⟨_, _, _, rfl⟩
  | unionWith source nested =>
    refine (yields_unionStage b source nested).imp ?_
    rintro _ ⟨_, _, _, _, rfl⟩
    exact ⟨_, _, _, rfl⟩
  | merge spec => rw [stage]; exact yields_fault _
  | out spec => rw [stage]; exact yields_fault _

/-! ## Runs -/

/-- The drafts of a compilation: those over a collection, at its start or in a `$unionWith`, those at
the start of a branch of a `$facet`, and those after one more stage. -/
inductive Reachable : Draft → Prop where
  | collection {name label ctes env e b e'} :
    ((ofCollection name label ctes).run env).run e = .ok b e' → Reachable b
  | facet {cte input ctes env e b e'} :
    ((facetBranch cte input ctes).run env).run e = .ok b e' → Reachable b
  | stage {s b env e b' e'} : Reachable b → ((stage s b).run env).run e = .ok b' e' → Reachable b'

/-- What holds at every start and is kept by every stage holds in every draft of a compilation. -/
lemma Reachable.invariant {P : Draft → Prop}
    (hcollection : ∀ name label ctes env, (ofCollection name label ctes).Yields env P)
    (hfacet : ∀ cte input ctes env, (facetBranch cte input ctes).Yields env P)
    (hstage : ∀ s b env, b.Reachable → P b → (Draft.stage s b).Yields env P)
    (h : b.Reachable) : P b := by
  induction h with
  | collection hrun => exact hcollection _ _ _ _ hrun
  | facet hrun => exact hfacet _ _ _ _ hrun
  | stage hb hrun ih => exact hstage _ _ _ hb ih hrun

/-- In every draft of a compilation the flags are right. -/
lemma Reachable.sound (h : b.Reachable) : b.Sound := by
  refine h.invariant (fun _ _ _ _ => ?_) (fun _ _ _ _ => ?_) fun s b env _ hb => ?_
  · exact yields_then fun _ => yields_pure (sound_ofSource _ _ _)
  · exact yields_then fun _ => yields_then fun _ => yields_pure (sound_ofSource _ _ _)
  · exact (yields_stage hb s).imp fun _ hs => hs.sound hb

/-- The run of a list of stages goes through drafts of the compilation. -/
lemma Reachable.stages {ss : List Stage} (h : b.Reachable) : (stages ss b).Yields env Reachable := by
  induction ss generalizing b with
  | nil =>
    rw [Draft.stages]
    exact yields_pure h
  | cons s ss ih =>
    rw [Draft.stages]
    refine yields_bind (P := Reachable) ?_ fun b₁ h₁ => ih h₁
    intro e b₁ e₁ hrun
    exact .stage h hrun

/-- In every draft of a compilation the flags are right, and every stage extends a query that has
not been evaluated past the clause: the current one, or a fresh one around it. -/
theorem reachable_stage_extends_open_query {b : Draft} (h : b.Reachable) :
    b.Sound ∧ ∀ (s : Stage) (env : Env) (e e' : Emission) (b' : Draft),
      ((stage s b).run env).run e = .ok b' e' → Extends env s b b' :=
  ⟨h.sound, fun s _ _ _ _ hrun => yields_stage h.sound s hrun⟩

/-- Groups that are cut to some rows can no longer be filtered: the query becomes a subquery, and the
condition goes into the `WHERE` clause around it. -/
theorem cutGroups_filtered_outside : ∃ b : Draft, b.Reachable ∧ b.Sound ∧ b.grouped = true ∧
    ∃ env e e' b', ((stage (.filter (.lit (.bool true))) b).run env).run e = .ok b' e' ∧
      Extends env (.filter (.lit (.bool true))) b b' ∧ b'.grouped = false := by
  let env := Env.of { collection := "orders" } {}
  have hbase : ((ofCollection "orders" baseAlias []).run env).run {} = .ok _ _ := rfl
  have hcounts {b} (hb : b.Reachable) {b' e'}
      (h : ((stage (.count ⟨["n"]⟩) b).run env).run {} = .ok b' e') : b'.Reachable :=
    .stage hb h
  have hcuts {b} (hb : b.Reachable) {b' e'}
      (h : ((stage (.limit 3) b).run env).run {} = .ok b' e') : b'.Reachable :=
    .stage hb h
  have hcut := hcuts (hcounts (.collection hbase) rfl) rfl
  have hall := reachable_stage_extends_open_query hcut
  exact ⟨_, hcut, hall.1, rfl, env, {}, _, _, rfl, hall.2 _ env {} _ _ rfl, rfl⟩

end Draft

end PipelineSql
