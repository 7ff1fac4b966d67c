import PipelineSql.Proofs.Relation.Alike
import PipelineSql.Proofs.Relation.Coupling
import PipelineSql.Proofs.SourceNames

/-!
# Tables and named subqueries

A table in a statement is a collection that the pipeline names, or a subquery that goes by a name
and is in sight. The subqueries stand in one list in front of the statement, and each sees those
before it. Their names are numbered, so only a collection with such a name can be taken for one of
them.
-/

namespace PipelineSql

/-! ## References -/

/-- The table that a token names, behind its schema if it has one. -/
def Token.table? : Token → Option (Option String × String)
  | .table schema name => some (schema, name)
  | _ => none

namespace Fragment

/-- The tables that a fragment refers to, at any depth. -/
def references (f : Fragment) : List (Option String × String) :=
  f.tokens.filterMap Token.table?

@[simp]
lemma references_nil : references [] = [] :=
  rfl

@[simp]
lemma references_append (f g : Fragment) : (f ++ g).references = f.references ++ g.references := by
  simp [references, tokens_append]

@[simp]
lemma references_token (t : Token) : references [.token t] = t.table?.toList := by
  cases h : t.table? <;> simp [references, tokens, Piece.flatten, Piece.tokens, h]

@[simp]
lemma references_text (s : String) : (text s).references = [] :=
  rfl

@[simp]
lemma references_ident (name : String) : (ident name).references = [] :=
  rfl

@[simp]
lemma references_newline : references Query.newline = [] :=
  rfl

/-- Brackets are no tables. -/
@[simp]
lemma references_group (b : Bracket) (f : Fragment) : references [.group b f] = f.references := by
  have hopening : b.opening.filterMap Token.table? = [] := by cases b <;> rfl
  have hclosing : b.closing.filterMap Token.table? = [] := by cases b <;> rfl
  simp [references, tokens_group, hopening, hclosing]

@[simp]
lemma references_nested (f : Fragment) : (Query.nested f).references = f.references := by
  unfold Query.nested paren
  simp

@[simp]
lemma references_derived (f : Fragment) : (derived f).references = f.references :=
  references_group .derived f

end Fragment

open Fragment

/-- A fragment refers to stored tables, and to subqueries in sight. -/
def FragmentLogic.referring (stored : List String) : FragmentLogic where
  Rel Γ f g := f = g ∧ ∀ r ∈ f.references, r.2 ∈ stored ∨ r.1 = none ∧ Γ.Names r.2
  Stored name := name ∈ stored
  Speaks d d' := d = d'
  Lists _ := True
  features h := .of_eq h
  mono := by
    rintro Γ Δ f g le ⟨rfl, h⟩
    refine ⟨rfl, fun r hr => (h r hr).imp_right ?_⟩
    rintro ⟨hschema, columns, hn⟩
    exact ⟨hschema, columns, le.named hn⟩
  nil := ⟨rfl, by simp⟩
  append := by
    rintro Γ f f' g g' ⟨rfl, h⟩ ⟨rfl, h'⟩
    refine ⟨rfl, ?_⟩
    rw [references_append]
    exact List.forall_mem_append.2 ⟨h, h'⟩
  plain := by
    intro Γ t ht
    have hnone : t.table? = none := by cases t <;> first | rfl | cases ht
    simp [hnone]
  text s _ := ⟨rfl, by simp [Token.table?]⟩
  said _ _ := ⟨rfl, by simp [Token.table?]⟩
  column _ := ⟨rfl, by simp [Token.table?]⟩
  table h := ⟨rfl, by simpa [Token.table?] using h⟩
  group := by
    rintro Γ b f g hb - - ⟨rfl, h⟩
    -- only the bracket around named subqueries changes what is in sight by name
    have hnamed : (Γ.inside b).named = Γ.named := by cases b <;> first | rfl | cases hb
    refine ⟨rfl, ?_⟩
    rw [references_group]
    simpa only [Ctx.Names, hnamed] using h
  name := by
    rintro Γ f g t ⟨rfl, -⟩ -
    exact Iff.rfl

lemma FragmentLogic.windowing_referring (stored : List String) : (referring stored).Windowing :=
  fun _ => ⟨rfl, by simp [Token.table?]⟩

/-! ## The list of subqueries -/

/-- The subqueries in sight of a subquery are those before it, and itself if it is recursive. -/
lemma Cte.names_inSight {before : List Cte} {c : Cte} {name : String}
    (h : Ctx.Names { named := c.inSight (before.map Cte.signature ++ []) } name) :
    name ∈ before.map Cte.name ∨ c.recursive = true ∧ name = c.name := by
  obtain ⟨columns, h⟩ := h
  have hbefore (h : (name, columns) ∈ before.map Cte.signature ++ []) :
      name ∈ before.map Cte.name := by
    rw [List.append_nil] at h
    obtain ⟨c', hc', he⟩ := List.mem_map.1 h
    exact List.mem_map.2 ⟨c', hc', congrArg Prod.fst he⟩
  unfold Cte.inSight at h
  split at h
  · next hrecursive =>
    obtain he | h := List.mem_cons.1 h
    · exact .inr ⟨hrecursive, congrArg Prod.fst he⟩
    · exact .inl (hbefore h)
  · exact .inl (hbefore h)

/-- The subqueries in front of a query are among its names. -/
lemma Query.sublist_cteNames (ctes : List Cte) : (ctes.map Cte.name).Sublist (cteNames ctes) := by
  induction ctes with
  | nil => exact .slnil
  | cons c ctes ih =>
    rw [List.map_cons, cteNames_cons, List.cons_append]
    exact (ih.trans (List.sublist_append_right _ _)).cons_cons _

lemma Statement.sublist_names (s : Statement) : (s.ctes.map Cte.name).Sublist s.names := by
  have hquery (q : Query) : (q.ctes.map Cte.name).Sublist q.names := by
    rw [Query.names_eq, List.append_assoc, List.append_assoc]
    exact (Query.sublist_cteNames _).trans (List.sublist_append_left _ _)
  cases s with
  | query q => exact hquery q
  | insert target columns q => exact (hquery q).trans (List.sublist_append_right _ _)
  | merge m =>
    exact ((hquery m.source).trans (List.sublist_cons_self _ _)).trans
      (List.sublist_append_right _ _)

/-! ## The references of a statement -/

/-- The references of subqueries and of what they stand in front of. -/
lemma Query.mem_references_cteScopes {d : Dialect} {ctes : List Cte} {body : Fragment}
    {r : Option String × String} :
    r ∈ (cteScopes d ctes body).references ↔
      (∃ c ∈ ctes, r ∈ (cteFragment d c).references) ∨ r ∈ body.references := by
  induction ctes with
  | nil => simp [cteScopes]
  | cons c ctes ih =>
    have hcomma : references (if ctes.isEmpty then [] else ",") = [] := by split <;> rfl
    simp only [cteScopes, references_group, references_append, hcomma, references_newline,
      List.append_nil, List.mem_append, ih, List.exists_mem_cons_iff, or_assoc]

lemma Query.references_withKeyword (d : Dialect) (ctes : List Cte) :
    references (withKeyword d ctes) = [] := by
  unfold withKeyword
  split
  · rfl
  · split <;> rfl

lemma Query.mem_references_fragment {d : Dialect} {q : Query} {r : Option String × String} :
    r ∈ (q.fragment d).references ↔ (∃ c ∈ q.ctes, r ∈ (cteFragment d c).references) ∨
      r ∈ (fragment d { q with ctes := [] }).references := by
  rw [FragmentLogic.fragment_outer, references_append, references_withKeyword, List.nil_append,
    mem_references_cteScopes]

/-- A merge refers to its target, to what its source refers to, and in its conditions and actions. -/
lemma Statement.references_merge (d : Dialect) (m : MergeStatement) :
    (fragment d (.merge m)).references =
      m.target.fragment.references ++ ((m.source.fragment d).references ++
        (m.on.fragment.references ++ ((action "WHEN MATCHED THEN " m.matched).references ++
          (action "WHEN NOT MATCHED THEN " m.unmatched).references))) := by
  simp only [fragment, paren, references_group, references_append, references_derived,
    references_nested, references_text, references_ident, references_newline, List.nil_append,
    List.append_assoc]

/-- A statement refers to what its subqueries and its body refer to. -/
lemma Statement.mem_references {d : Dialect} {s : Statement} {r : Option String × String} :
    r ∈ (s.fragment d).references ↔ (∃ c ∈ s.ctes, r ∈ (Query.cteFragment d c).references) ∨
      r ∈ (s.body.fragment d).references := by
  cases s with
  | query q => exact Query.mem_references_fragment
  | insert target columns q =>
    simp only [fragment, body, ctes, references_append, List.mem_append,
      Query.mem_references_fragment (q := q), or_left_comm]
  | merge m =>
    rw [body, references_merge, references_merge]
    simp only [ctes, List.mem_append, Query.mem_references_fragment (q := m.source)]
    rw [or_assoc, or_left_comm]

/-- Does a table in a statement denote one of its subqueries, and not what is stored? -/
def Statement.Lends (s : Statement) (r : Option String × String) : Prop :=
  r.1 = none ∧ r.2 ∈ s.ctes.map Cte.name

namespace Pipeline

variable {p : Pipeline} {t : Target} {o : Options} {s : Statement} {e : Emission}

/-- The collections that a pipeline and its target name, at any depth. -/
def collections (p : Pipeline) (t : Target) : List String :=
  p.collection t :: (Stage.nodesOfList p.stages).flatMap Stage.collections

/-- Every table in a compiled statement is a collection or a subquery in sight. -/
lemma statementRel_referring (h : p.compilation t o = .ok s e) :
    RenderLogic.StatementRel (.referring (p.collections t)) s s := by
  have hnodes : ∀ n ∈ Stage.nodesOfList p.stages, ∀ c ∈ n.collections, c ∈ p.collections t :=
    fun n hn c hc => List.mem_cons_of_mem _ (List.mem_flatMap.2 ⟨n, hn, hc⟩)
  rw [Stage.nodesOfList_eq, ← RenderLogic.append_splitTerminal p.stages, List.flatMap_append,
    List.forall_mem_append, ← Stage.nodesOfList_eq] at hnodes
  have hextracts := FragmentLogic.extracts_all (L := .referring (p.collections t))
    (rfl : Dialect.oracle26ai = .oracle26ai) rfl
  have halike := alike_compilation (L := .referring (p.collections t))
    (fun _ _ => ⟨rfl, by simp [Token.table?]⟩) (F := fun _ => True) (fun _ => trivial) (p := p)
    (t := t) (rfl : o.dialect = o.dialect) rfl rfl List.mem_cons_self
    (fun n hn => ⟨hnodes.1 n hn, fun _ _ _ _ => hextracts _, fun _ _ => trivial,
      FragmentLogic.windowing_referring _, fun _ => trivial, trivial, nofun, fun _ => trivial⟩)
    ?_ (fun _ _ _ _ => trivial)
    (fun _ _ b _ _ _ => RenderLogic.admits_of_lists (fun _ => trivial) _ b)
  · rw [h] at halike
    cases halike with
    | ok hs => exact hs
  · intro w hw c hc
    refine hnodes.2 w (List.mem_flatMap.2 ⟨w, Option.mem_toList.2 hw, w.self_mem_nodes⟩) c ?_
    exact List.mem_append_left _ hc

/-- A subquery refers to collections, to subqueries before it, and to itself if it is recursive. -/
lemma references_cte (h : p.compilation t o = .ok s e) {before after : List Cte} {c : Cte}
    (hsplit : s.ctes = before ++ c :: after) (d : Dialect) :
    ∀ r ∈ (Query.cteFragment d c).references, r.2 ∈ p.collections t ∨
      r.1 = none ∧ (r.2 ∈ before.map Cte.name ∨ c.recursive = true ∧ r.2 = c.name) := by
  have hctes := (statementRel_referring h).ctes
  rw [hsplit] at hctes
  obtain ⟨c', hc⟩ := hctes.cte
  exact fun r hr => ((hc.layout d).2 r hr).imp_right (And.imp_right Cte.names_inSight)

/-- The body of a statement refers to collections and to the subqueries in front of it. -/
lemma references_body (h : p.compilation t o = .ok s e) (d : Dialect) :
    ∀ r ∈ (s.body.fragment d).references, r.2 ∈ p.collections t ∨
      r.1 = none ∧ r.2 ∈ s.ctes.map Cte.name := by
  intro r hr
  refine (((statementRel_referring h).body d).2 r hr).imp_right (And.imp_right ?_)
  rintro ⟨columns, hn⟩
  obtain ⟨c, hc, he⟩ := List.mem_map.1 hn
  exact List.mem_map.2 ⟨c, hc, congrArg Prod.fst he⟩

/-- A statement refers to collections and to its subqueries. -/
lemma references_statement (h : p.compilation t o = .ok s e) (d : Dialect) :
    ∀ r ∈ (s.fragment d).references, r.2 ∈ p.collections t ∨ s.Lends r := by
  intro r hr
  obtain ⟨c, hc, hr⟩ | hr := Statement.mem_references.1 hr
  · obtain ⟨before, after, hsplit⟩ := List.append_of_mem hc
    refine (references_cte h hsplit d r hr).imp_right (And.imp_right fun hname => ?_)
    rw [hsplit]
    obtain hname | ⟨-, hname⟩ := hname
    · simp [List.mem_map.1 hname]
    · simp [hname]
  · exact references_body h d r hr

/-- The subqueries of a statement are closed and in order, if no collection of the pipeline or of
its target is called like one of them. Their names are distinct. Each refers as to tables only to
collections, to subqueries that stand before it, or to itself if it is recursive. The statement
behind them refers only to collections and to subqueries of the list. -/
theorem subqueries_closed_and_ordered (h : p.compilation t o = .ok s e)
    (hfree : ∀ c ∈ s.ctes, c.name ∉ p.collections t) (d : Dialect) :
    (s.ctes.map Cte.name).Nodup ∧
    (∀ before c after, s.ctes = before ++ c :: after → ∀ r ∈ (Query.cteFragment d c).references,
      r.2 ∈ p.collections t ∧ r.2 ∉ s.ctes.map Cte.name ∨
      r.1 = none ∧ (r.2 ∈ before.map Cte.name ∨ c.recursive = true ∧ r.2 = c.name)) ∧
    ∀ r ∈ (s.body.fragment d).references,
      r.2 ∈ p.collections t ∧ r.2 ∉ s.ctes.map Cte.name ∨
      r.1 = none ∧ r.2 ∈ s.ctes.map Cte.name := by
  have hstored (name : String) (hn : name ∈ p.collections t) : name ∉ s.ctes.map Cte.name := by
    intro hname
    obtain ⟨c, hc, rfl⟩ := List.mem_map.1 hname
    exact hfree c hc hn
  refine ⟨s.sublist_names.nodup (nodup_statement_names h).1, ?_, ?_⟩
  · intro before c after hsplit r hr
    exact (references_cte h hsplit d r hr).imp_left fun hn => ⟨hn, hstored _ hn⟩
  · intro r hr
    exact (references_body h d r hr).imp_left fun hn => ⟨hn, hstored _ hn⟩

/-- Who is above each person, in facets with facets and an archive in them, written to a digest. -/
def staffDigest : Pipeline where
  stages := [.graphLookup (chain "staff"),
    .facet [(⟨["inner"]⟩, [.facet [(⟨["first"]⟩, [.limit 1])],
        .unionWith "archive" (some [.graphLookup (chain "archive")])]),
      (⟨["rest"]⟩, [.skip 1])],
    .out { schema := none, table := "digest" }]
where
  chain (source : String) : GraphLookup :=
    { source
      startWith := .field { path := ⟨["boss"]⟩ }
      connectFrom := ⟨["boss"]⟩
      connectTo := ⟨["name"]⟩
      asField := ⟨["above"]⟩
      maxDepth := some 3
      depthField := none
      restrict := none }

theorem staffDigest_subqueries : ∃ s e,
    staffDigest.compilation { collection := "orders" } {} = .ok s e ∧
    s.ctes.map (fun c => (c.name, (Query.cteFragment .oracle26ai c).references.map Prod.snd)) =
      [("graph_1", ["staff", "graph_1", "staff"]), ("facet_1", ["orders", "graph_1"]),
        ("facet_2", ["facet_1"]), ("graph_2", ["archive", "graph_2", "archive"])] ∧
    (s.body.fragment .oracle26ai).references.map Prod.snd =
      ["digest", "facet_2", "archive", "graph_2", "facet_1"] ∧
    (s.ctes.map Cte.name).Nodup ∧
    (∀ before c after, s.ctes = before ++ c :: after →
      ∀ r ∈ (Query.cteFragment .oracle26ai c).references,
        r.2 ∈ ["orders", "staff", "archive", "archive", "digest"] ∧ r.2 ∉ s.ctes.map Cte.name ∨
        r.1 = none ∧ (r.2 ∈ before.map Cte.name ∨ c.recursive = true ∧ r.2 = c.name)) ∧
    ∀ r ∈ (s.body.fragment .oracle26ai).references,
      r.2 ∈ ["orders", "staff", "archive", "archive", "digest"] ∧ r.2 ∉ s.ctes.map Cte.name ∨
      r.1 = none ∧ r.2 ∈ s.ctes.map Cte.name := by
  obtain ⟨s, e, h, hctes, hbody, hfree⟩ := exists_of_yields (p := staffDigest)
    (t := { collection := "orders" }) (o := {})
    (P := fun s =>
      s.ctes.map (fun c => (c.name, (Query.cteFragment .oracle26ai c).references.map Prod.snd)) =
        [("graph_1", ["staff", "graph_1", "staff"]), ("facet_1", ["orders", "graph_1"]),
          ("facet_2", ["facet_1"]), ("graph_2", ["archive", "graph_2", "archive"])] ∧
      (s.body.fragment .oracle26ai).references.map Prod.snd =
        ["digest", "facet_2", "archive", "graph_2", "facet_1"] ∧
      ∀ c ∈ s.ctes, c.name ∉ staffDigest.collections { collection := "orders" })
    (by decide +kernel)
  exact ⟨s, e, h, hctes, hbody, subqueries_closed_and_ordered h hfree .oracle26ai⟩

/-! ## Captured collections -/

lemma not_numbered_of_plain {base name : String} (h : '_' ∉ name.toList) :
    ¬ Numbered base name := by
  rintro ⟨n, -, rfl⟩
  rw [toList_numbered] at h
  exact h (List.mem_append_right _ List.mem_cons_self)

/-- A subquery has the number of one of the uses of its base. -/
lemma exists_number_of_cte (h : p.compilation t o = .ok s e) {c : Cte} (hc : c ∈ s.ctes) :
    ∃ n, 0 < n ∧ n ≤ e.aliases.count c.base ∧ c.name = s!"{c.base}_{n}" := by
  have hctes := (statementRel_referring h).ctes
  have hmem : c.name ∈ s.names := s.sublist_names.subset (List.mem_map_of_mem hc)
  obtain ⟨before, after, hsplit⟩ := List.append_of_mem hc
  rw [hsplit] at hctes
  obtain ⟨c', hrel⟩ := hctes.cte
  obtain ⟨n, hpos, hname⟩ := hrel.numbered
  obtain hreserved | hhanded := List.mem_append.1 ((nodup_statement_names h).2 hmem)
  · have hplain : ∀ name ∈ reservedNames, '_' ∉ name.toList := by decide
    exact absurd hrel.numbered (not_numbered_of_plain (hplain _ hreserved))
  · obtain ⟨base, m, he, hm⟩ := exists_numbered_of_mem hhanded
    obtain ⟨rfl, rfl⟩ := numbered_inj (hname.symm.trans he)
    exact ⟨n, hpos, hm, hname⟩

/-- Only a collection that is called like a numbered facet or graph can be taken for a subquery. The
name of a subquery is one of these, with a number up to the uses of its base. A table with any other
name is a collection and denotes what is stored, and a table that is no collection denotes a
subquery. -/
theorem only_numbered_tables_denote_subqueries (h : p.compilation t o = .ok s e) (d : Dialect) :
    (∀ c ∈ s.ctes, ∃ n, 0 < n ∧ n ≤ e.aliases.count c.base ∧ c.name = s!"{c.base}_{n}") ∧
    ∀ r ∈ (s.fragment d).references,
      (¬ Numbered "facet" r.2 → ¬ Numbered "graph" r.2 →
        r.2 ∈ p.collections t ∧ ¬ s.Lends r) ∧
      (r.2 ∉ p.collections t → s.Lends r) := by
  have hnumbered (name : String) (hname : name ∈ s.ctes.map Cte.name) :
      Numbered "facet" name ∨ Numbered "graph" name := by
    obtain ⟨c, hc, rfl⟩ := List.mem_map.1 hname
    obtain ⟨n, hpos, -, hn⟩ := exists_number_of_cte h hc
    unfold Cte.base at hn
    split at hn
    · exact .inr ⟨n, hpos, hn⟩
    · exact .inl ⟨n, hpos, hn⟩
  refine ⟨fun c hc => exists_number_of_cte h hc, fun r hr => ?_⟩
  have htable : r.2 ∈ p.collections t ∨ s.Lends r := references_statement h d r hr
  refine ⟨fun hfacet hgraph => ?_, fun hn => htable.resolve_left hn⟩
  have hstored : ¬ s.Lends r := fun hl => (hnumbered _ hl.2).elim hfacet hgraph
  exact ⟨htable.resolve_right hstored, hstored⟩

/-- Facets and a lookup over collections that are called almost like subqueries. -/
def lookalikes : Pipeline where
  stages := [.facet [(⟨["a"]⟩, [.unionWith "facet" none])],
    .lookup ⟨"graph", ⟨["x"]⟩, ⟨["a"]⟩, ⟨["b"]⟩⟩]

theorem lookalikes_denote_collections : ∃ s e,
    lookalikes.compilation { collection := "orders" } {} = .ok s e ∧
    s.ctes.map Cte.name = ["facet_1"] ∧
    (∃ r ∈ (s.fragment .oracle26ai).references, r.2 = "facet") ∧
    ∀ r ∈ (s.fragment .oracle26ai).references,
      r.2 ∈ ["orders", "facet", "graph"] ∧ ¬ s.Lends r ∨ r.2 = "facet_1" ∧ s.Lends r := by
  obtain ⟨s, e, h, hctes, hexists, htables⟩ := exists_of_yields (p := lookalikes)
    (t := { collection := "orders" }) (o := {})
    (P := fun s => s.ctes.map Cte.name = ["facet_1"] ∧
      (∃ r ∈ (s.fragment .oracle26ai).references, r.2 = "facet") ∧
      ∀ r ∈ (s.fragment .oracle26ai).references, '_' ∉ r.2.toList ∨ r.2 = "facet_1")
    (by decide +kernel)
  refine ⟨s, e, h, hctes, hexists, fun r hr => ?_⟩
  obtain ⟨hplain, hlent⟩ := (only_numbered_tables_denote_subqueries h .oracle26ai).2 r hr
  refine (htables r hr).imp (fun hr => ?_) fun hr => ⟨hr, hlent ?_⟩
  · exact hplain (not_numbered_of_plain hr) (not_numbered_of_plain hr)
  · rw [hr]
    decide

/-- The facets of a collection, one of which adds the documents of a collection called `facet_1`. -/
def facetOfFacet : Pipeline where
  stages := [.facet [(⟨["a"]⟩, [.unionWith "facet_1" none])]]

/-- The collection is taken for the subquery with the input of the facets. -/
theorem facetOfFacet_captured : ∃ s e,
    facetOfFacet.compilation { collection := "orders" } {} = .ok s e ∧
    "facet_1" ∈ facetOfFacet.collections { collection := "orders" } ∧
    s.ctes.map Cte.name = ["facet_1"] ∧
    (s.fragment .oracle26ai).references = [(none, "orders"), (none, "facet_1"), (none, "facet_1")] ∧
    s.Lends (none, "facet_1") := by
  obtain ⟨s, e, h, hctes, hrefs⟩ := exists_of_yields (p := facetOfFacet)
    (t := { collection := "orders" }) (o := {})
    (P := fun s => s.ctes.map Cte.name = ["facet_1"] ∧ (s.fragment .oracle26ai).references =
      [(none, "orders"), (none, "facet_1"), (none, "facet_1")])
    (by decide +kernel)
  refine ⟨s, e, h, by decide, hctes, hrefs, rfl, ?_⟩
  rw [hctes]
  exact List.mem_cons_self

end Pipeline

end PipelineSql
