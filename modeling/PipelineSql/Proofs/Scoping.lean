import PipelineSql.Proofs.Relation.Coupling

/-!
# Scoping of statements

The alias of a column `alias.column` is to name a row source of the query around the column, or of a
query around that one, and the column is to be one that the source exports. What a table is shows in
its name: without a schema it is the subquery that goes by that name, if one is in sight.

Main result: in every compiled statement the alias of a column names a source in sight that offers
the column. The column is found there unless a named subquery without it has taken the name of the
collection.
-/

namespace PipelineSql

namespace ColumnUse

/-- Is the column found? A source of the alias offers it, and a table of the alias that is named
like a subquery in sight is that subquery. -/
structure Resolves (u : ColumnUse) : Prop where
  offered : u.Offered
  exported : ∀ s ∈ u.ctx.sources, s.label = u.source → ∀ n ∈ u.ctx.named,
    s.offer = .stored none n.1 → u.column ∈ n.2

/-- Has a named subquery without the column taken the name of the collection? -/
def Captured (u : ColumnUse) : Prop :=
  ∃ s ∈ u.ctx.sources, s.label = u.source ∧
    ∃ n ∈ u.ctx.named, s.offer = .stored none n.1 ∧ u.column ∉ n.2

instance : DecidablePred Captured := fun u =>
  inferInstanceAs (Decidable (∃ s ∈ u.ctx.sources, s.label = u.source ∧
    ∃ n ∈ u.ctx.named, s.offer = .stored none n.1 ∧ u.column ∉ n.2))

/-- What is offered is found, apart from what is captured. -/
lemma Offered.resolves_iff {u : ColumnUse} (h : u.Offered) : u.Resolves ↔ ¬ u.Captured := by
  constructor
  · rintro hu ⟨s, hs, hl, n, hn, ho, hc⟩
    exact hc (hu.exported s hs hl n hn ho)
  · intro hu
    refine ⟨h, fun s hs hl n hn ho => ?_⟩
    by_contra hc
    exact hu ⟨s, hs, hl, n, hn, ho, hc⟩

end ColumnUse

/-- The qualified columns of a statement. -/
def Statement.uses (s : Statement) (d : Dialect) : List ColumnUse :=
  (s.fragment d).uses {}

/-- The brackets of a statement with their bodies. -/
def Statement.brackets (s : Statement) (d : Dialect) : List (Bracket × Fragment) :=
  (s.fragment d).brackets

/-- Every column of a compiled statement is one that a source in sight offers by the alias, and the
sources in sight are introduced where they are listed. The column is found exactly if no named
subquery without it has taken the name of the collection. -/
theorem compiled_column_resolves_iff_not_captured {p : Pipeline} {t : Target} {o : Options}
    {s : Statement} {e : Emission} (h : p.compilation t o = .ok s e) (d : Dialect) :
    (∀ b ∈ s.brackets d, b.1.Declared b.2) ∧
      ∀ u ∈ s.uses d, u.Offered ∧ (u.Resolves ↔ ¬ u.Captured) := by
  obtain ⟨f, hf⟩ := coupled_compilation h d
  refine ⟨hf.inScope.declared, fun u hu => ?_⟩
  have ho := hf.inScope.offered u hu
  exact ⟨ho, ho.resolves_iff⟩

/-- Does a compilation end in a statement with a property? -/
def Pipeline.yields (p : Pipeline) (t : Target) (o : Options) (P : Statement → Prop)
    [DecidablePred P] : Bool :=
  match p.compilation t o with
  | .ok s _ => P s
  | .error .. => false

lemma Pipeline.exists_of_yields {p : Pipeline} {t : Target} {o : Options} {P : Statement → Prop}
    [DecidablePred P] (h : p.yields t o P = true) : ∃ s e, p.compilation t o = .ok s e ∧ P s := by
  unfold yields at h
  split at h
  · next s e hs => exact ⟨s, e, hs, of_decide_eq_true h⟩
  · cases h

/-- The facets of a count, and the documents of another collection. -/
def facetsWith (collection : String) : Pipeline :=
  { stages := [.count ⟨["n"]⟩, .facet [(⟨["a"]⟩, [.limit 1])], .unionWith collection none] }

theorem facetsWith_customers_resolves : ∃ s e,
    (facetsWith "customers").compilation { collection := "orders" } {} = .ok s e ∧
      s.uses .oracle26ai ≠ [] ∧ ∀ u ∈ s.uses .oracle26ai, u.Offered ∧ u.Resolves := by
  obtain ⟨s, e, h, hne, hu⟩ := Pipeline.exists_of_yields (p := facetsWith "customers")
    (t := { collection := "orders" }) (o := {})
    (P := fun s => (s.uses .oracle26ai).isEmpty = false ∧ ∀ u ∈ s.uses .oracle26ai, ¬ u.Captured)
    (by decide +kernel)
  have hall := (compiled_column_resolves_iff_not_captured h .oracle26ai).2
  exact ⟨s, e, h, by simpa using hne, fun u hmem =>
    ⟨(hall u hmem).1, (hall u hmem).2.2 (hu u hmem)⟩⟩

/-- The subquery behind the facets is named like the collection, and has no documents. -/
theorem facetsWith_facet_captured : ∃ s e,
    (facetsWith "facet_1").compilation { collection := "orders" } {} = .ok s e ∧
      ∃ u ∈ s.uses .oracle26ai, ¬ u.Resolves := by
  obtain ⟨s, e, h, u, hmem, hu⟩ := Pipeline.exists_of_yields (p := facetsWith "facet_1")
    (t := { collection := "orders" }) (o := {})
    (P := fun s => ∃ u ∈ s.uses .oracle26ai, u.Captured) (by decide +kernel)
  refine ⟨s, e, h, u, hmem, fun hr => ?_⟩
  obtain ⟨source, hs, hl, n, hn, ho, hc⟩ := hu
  exact hc (hr.exported source hs hl n hn ho)

end PipelineSql
