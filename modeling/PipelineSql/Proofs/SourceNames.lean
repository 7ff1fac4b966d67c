import PipelineSql.Proofs.FreshNames
import PipelineSql.Proofs.Scoping

/-!
# Names in statements

A draft holds the aliases of its sources of rows and the names of its subqueries. A stage draws
those of the next draft from them and from the names that it hands out, so no name comes to stand
twice.

Main result: the names that a compilation hands out are distinct, whatever the collections are
called, and so are the aliases and the names of subqueries in its statement.
-/

namespace PipelineSql

/-! ## The names in a query -/

namespace Query

mutual

/-- The aliases of the sources in a query, at any depth, and the names of its subqueries. -/
def names : Query → List String
  | ⟨ctes, _, _, source, joins, _, _, _, _, _, compound⟩ =>
    cteNames ctes ++ compoundNames compound ++ fromNames source ++ joinNames joins

/-- The names of subqueries and those in them. -/
def cteNames : List Cte → List String
  | [] => []
  | ⟨name, _, query, _, _⟩ :: rest => name :: query.names ++ cteNames rest

/-- The names in the branches of a compound query. -/
def compoundNames : Option Compound → List String
  | none => []
  | some ⟨left, _, _, right⟩ => left.names ++ right.names

/-- The names in a `FROM` clause. -/
def fromNames : Option Source → List String
  | none => []
  | some s => sourceNames s

/-- The alias of a source and the names in it. -/
def sourceNames : Source → List String
  | .table t => t.label.toList
  | .subquery query label => label :: query.names
  | .expr _ label _ => [label]
  | .dual => []

/-- The names in joins. -/
def joinNames : List Join → List String
  | [] => []
  | ⟨_, source, _⟩ :: rest => sourceNames source ++ joinNames rest

end

lemma names_eq (q : Query) :
    q.names = cteNames q.ctes ++ compoundNames q.compound ++ fromNames q.source ++
      joinNames q.joins := by
  cases q
  rfl

lemma names_compound (c : Compound) :
    Query.names { compound := some c } = c.left.names ++ c.right.names := by
  cases c
  simp [names_eq, cteNames, compoundNames, fromNames, joinNames]

lemma cteNames_cons (c : Cte) (rest : List Cte) :
    cteNames (c :: rest) = c.name :: c.query.names ++ cteNames rest := by
  cases c
  rfl

lemma joinNames_cons (j : Join) (rest : List Join) :
    joinNames (j :: rest) = sourceNames j.source ++ joinNames rest := by
  cases j
  rfl

lemma cteNames_append (a b : List Cte) : cteNames (a ++ b) = cteNames a ++ cteNames b := by
  induction a with
  | nil => rfl
  | cons c a ih => simp [cteNames_cons, ih]

lemma joinNames_append (a b : List Join) : joinNames (a ++ b) = joinNames a ++ joinNames b := by
  induction a with
  | nil => rfl
  | cons j a ih => simp [joinNames_cons, ih]

end Query

namespace Draft

open Query Render

variable {b b' : Draft}

/-- The names in the query of a draft and in the subqueries in front of it. -/
def names (b : Draft) : List String :=
  cteNames b.ctes ++ b.query.names

/-- The parts of a draft with names in them. -/
def sources (b : Draft) : List Cte × List Cte × Option Compound × Option Source × List Join :=
  (b.ctes, b.query.ctes, b.query.compound, b.query.source, b.query.joins)

/-- The names in a draft are those in its sources. -/
lemma names_congr (h : b'.sources = b.sources) : b'.names = b.names := by
  simp only [sources, Prod.mk.injEq] at h
  obtain ⟨hctes, hinner, hcompound, hsource, hjoins⟩ := h
  rw [names, names, names_eq, names_eq, hctes, hinner, hcompound, hsource, hjoins]

lemma draws_same (h : b'.sources = b.sources) : (pure b' : Render Draft).Draws b.names names :=
  draws_pure (names_congr h ▸ List.Subperm.refl _)

lemma names_ofSource (source : Source) (scope : Scope) (ctes : List Cte) :
    (ofSource source scope ctes).names = cteNames ctes ++ sourceNames source := by
  simp [names, names_eq, ofSource, cteNames, compoundNames, fromNames, joinNames]

lemma names_join (b : Draft) (j : Join) : (b.join j).names = b.names ++ sourceNames j.source := by
  simp [names, names_eq, join, joinNames_append, joinNames_cons, joinNames]

lemma names_addCte (b : Draft) (c : Cte) :
    (names { b with ctes := b.ctes ++ [c] }).Perm (cteNames [c] ++ b.names) := by
  rw [names, names, cteNames_append, ← List.append_assoc]
  exact List.perm_append_comm.append_right b.query.names

lemma draws_finish (b : Draft) : b.finish.Draws b.query.names Query.names := by
  refine draws_then fun env => draws_pure ?_
  simp only [names_eq]
  exact .refl _

lemma draws_finishDocument (b : Draft) : b.finishDocument.Draws b.query.names Query.names := by
  refine draws_then fun env => draws_pure ?_
  simp only [names_eq]
  exact .refl _

/-! ## Wrapping -/

lemma draws_wrapAs (b : Draft) : b.wrapAs.Draws b.names fun r => r.1.names := by
  refine draws_alias fun label => ?_
  refine draws_bind (label :: cteNames b.ctes) (draws_finish b) ?_ fun query => ?_
  · rw [List.subperm_iff_count]
    intro x
    simp only [names, List.count_append, List.count_cons]
    omega
  · refine draws_then fun env => draws_pure ?_
    rw [names_ofSource, List.subperm_iff_count]
    intro x
    simp only [sourceNames, List.count_append, List.count_cons]
    omega

lemma draws_wrap (b : Draft) : b.wrap.Draws b.names names := by
  refine draws_seq (draws_wrapAs b) fun r => ?_
  refine draws_ite (draws_pure (.refl _)) ?_
  exact draws_then fun env => draws_same rfl

lemma draws_wrapIf (b : Draft) (needed : Bool) : (b.wrapIf needed).Draws b.names names :=
  draws_ite (draws_wrap b) (draws_same rfl)

/-- A draft that is wrapped if need be, and then changed in clauses without names. -/
lemma draws_adjusted {β : Type} {needed : Bool} {r : Draft → Render β} {f : Draft → β → Draft}
    (hf : ∀ b x, (f b x).sources = b.sources) :
    (b.wrapIf needed >>= fun b => r b >>= fun x => pure (f b x)).Draws b.names names :=
  draws_seq (draws_wrapIf b needed) fun b₀ => draws_then fun x => draws_same (hf b₀ x)

lemma draws_groupingReady (b : Draft) : b.groupingReady.Draws b.names names := by
  refine draws_ite (draws_same rfl) ?_
  exact draws_seq (draws_wrapAs b) fun r => draws_same rfl

/-! ## Stages without a source of their own -/

lemma draws_filterStage (b : Draft) (test : Expr) : (b.filterStage test).Draws b.names names := by
  refine draws_ite ?_ ?_
  · exact draws_then fun _ => draws_same rfl
  · exact draws_adjusted fun _ _ => rfl

lemma draws_excludeFields (b : Draft) (fields : List Path) (stage : String) :
    (b.excludeFields fields stage).Draws b.names names := by
  refine draws_ite (draws_then fun env => ?_) (draws_same rfl)
  exact draws_ite (draws_then fun _ => draws_same rfl) (draws_same rfl)

lemma draws_projectStage (b : Draft) (fields : List (Path × ProjectField)) :
    (b.projectStage fields).Draws b.names names := by
  refine draws_seq (draws_wrapIf b _) fun b₀ => ?_
  split
  · exact draws_then fun _ => draws_same rfl
  · exact draws_excludeFields b₀ _ _

lemma draws_groupStage (b : Draft) (spec : Group) : (b.groupStage spec).Draws b.names names := by
  refine draws_seq (draws_groupingReady b) fun b₀ => ?_
  refine draws_then fun key => draws_then fun columns => draws_same ?_
  split
  · rfl
  · rfl

lemma draws_bucketStage (b : Draft) (spec : Bucket) : (b.bucketStage spec).Draws b.names names := by
  refine draws_seq (draws_groupingReady b) fun b₀ => ?_
  refine draws_warn_if (draws_then fun key => draws_then fun columns => draws_same ?_)
  split
  · rfl
  · rfl

lemma draws_bucketAutoStage (b : Draft) (spec : BucketAuto) :
    (b.bucketAutoStage spec).Draws b.names names := by
  refine draws_then fun _ => draws_then fun _ => draws_seq (draws_groupingReady b) fun b₀ => ?_
  refine draws_then fun subject => ?_
  refine draws_seq (draws_wrapAs (b₀.numbered spec.buckets subject)) fun r => ?_
  exact draws_then fun columns => draws_same rfl

/-! ## Stages that join -/

lemma draws_lookupStage (b : Draft) (l : Lookup) : (b.lookupStage l).Draws b.names names := by
  refine draws_seq (draws_wrapIf b _) fun b₀ => ?_
  refine draws_alias fun label => draws_alias fun inner => draws_then fun env => draws_pure ?_
  show ((b₀.join _).names).Subperm _
  rw [names_join]
  exact List.perm_append_comm.subperm.trans (List.Perm.swap ..).subperm

lemma draws_unwindStage (b : Draft) (u : Unwind) : (b.unwindStage u).Draws b.names names := by
  refine draws_seq (draws_wrapIf b _) fun b₀ => draws_then fun env => ?_
  split
  · exact draws_fail _
  · refine draws_alias fun label => draws_pure ?_
    show ((b₀.join _).names).Subperm _
    rw [names_join]
    exact List.perm_append_comm.subperm

end Draft

/-! ## Recursive lookups -/

namespace GraphLookup

open Query Render

lemma draws_starts (g : GraphLookup) : g.starts.Draws [] Query.names := by
  refine draws_alias fun label => draws_then fun env => draws_then fun filters => ?_
  exact draws_pure (.refl _)

lemma draws_steps (g : GraphLookup) (cte : String) : (g.steps cte).Draws [] Query.names := by
  refine draws_alias fun here => draws_alias fun label => ?_
  refine draws_then fun env => draws_then fun filters => draws_pure ?_
  exact (List.Perm.swap ..).subperm

lemma draws_walk (g : GraphLookup) (name : String) :
    (g.walk name).Draws [name] fun c => cteNames [c] := by
  refine draws_bind [name] (draws_starts g) (.refl _) fun left => ?_
  refine draws_bind (left.names ++ [name]) (draws_steps g name) (.refl _) fun right => draws_pure ?_
  rw [cteNames_cons, names_compound, List.subperm_iff_count]
  intro x
  simp only [cteNames, List.count_append, List.count_cons, List.count_nil]
  omega

end GraphLookup

namespace Draft

open Query Render

lemma draws_graphStage (b : Draft) (g : GraphLookup) : (b.graphStage g).Draws b.names names := by
  refine draws_then fun _ => draws_seq (draws_wrapIf b _) fun b₀ => draws_then fun start => ?_
  refine draws_alias fun cte => draws_bind b₀.names (g.draws_walk cte) (.refl _) fun walk => ?_
  refine draws_then fun _ => draws_alias fun ranked => draws_alias fun label => ?_
  refine draws_then fun env => draws_pure ?_
  refine (names_addCte (b₀.join _) walk).subperm.trans ?_
  rw [names_join, ← List.append_assoc]
  exact List.perm_append_comm.subperm

/-! ## Stages with stages in them -/

lemma draws_ofCollection (collection label : String) (ctes : List Cte) :
    (ofCollection collection label ctes).Draws (label :: cteNames ctes) names := by
  refine draws_then fun env => draws_pure ?_
  rw [names_ofSource]
  exact List.perm_append_comm.subperm

lemma draws_facetBranch (cte : String) (input : Scope) (ctes : List Cte) :
    (facetBranch cte input ctes).Draws (cteNames ctes) names := by
  refine draws_alias fun label => draws_then fun env => draws_pure ?_
  rw [names_ofSource]
  exact List.perm_append_comm.subperm

lemma draws_union (left right : Query) (ctes : List Cte) :
    (union left right ctes).Draws (right.names ++ (left.names ++ cteNames ctes)) names := by
  refine draws_alias fun label => draws_then fun env => draws_pure ?_
  rw [names_ofSource, sourceNames, names_compound, List.subperm_iff_count]
  intro x
  simp only [List.count_append, List.count_cons]
  omega

mutual

/-- No stage uses a name twice. -/
lemma draws_stage : ∀ (s : Stage) (b : Draft), (stage s b).Draws b.names names
  | .filter test, b => draws_filterStage b test
  | .sort .., _ => draws_adjusted fun _ _ => rfl
  | .limit _, _ => draws_same rfl
  | .skip _, _ => draws_same rfl
  | .sample _, b => draws_seq (draws_wrapIf b _) fun _ => draws_same rfl
  | .lookup spec, b => draws_lookupStage b spec
  | .lookupPipeline .., _ => draws_fail _
  | .unwind spec, b => draws_unwindStage b spec
  | .redact _, _ => draws_then fun _ => draws_adjusted fun _ _ => rfl
  | .project fields, b => draws_projectStage b fields
  | .addFields _, _ => draws_adjusted fun _ _ => rfl
  | .unset _, b => draws_seq (draws_wrapIf b _) fun b₀ => draws_excludeFields b₀ _ _
  | .replaceRoot _, _ => draws_adjusted fun _ _ => rfl
  | .group spec, b => draws_groupStage b spec
  | .count _, b => draws_seq (draws_groupingReady b) fun _ => draws_same rfl
  | .bucket spec, b => draws_bucketStage b spec
  | .bucketAuto spec, b => draws_bucketAutoStage b spec
  | .windowFields _, b =>
    draws_seq (draws_wrapIf b _) fun _ => draws_then fun _ => draws_then fun _ => draws_same rfl
  | .graphLookup spec, b => draws_graphStage b spec
  | .facet facets, b => by
    refine draws_alias fun name => ?_
    refine draws_bind (name :: cteNames b.ctes) (draws_finish b) ?_ fun query => ?_
    · rw [names, List.subperm_iff_count]
      intro x
      simp only [List.count_append, List.count_cons]
      omega
    · refine draws_then fun _ => ?_
      refine draws_bind [] (draws_branches facets name b.scope _) ?_ fun r => draws_pure ?_
      · rw [cteNames_append, cteNames_cons, List.subperm_iff_count]
        intro x
        simp only [cteNames, List.count_append, List.count_cons, List.count_nil]
        omega
      · rw [ofFacets, names_ofSource]
        exact .refl _
  | .unionWith source nested, b => by
    refine draws_bind (cteNames b.ctes) (draws_finishDocument b) ?_ fun left => ?_
    · exact List.perm_append_comm.subperm
    refine draws_alias fun label => ?_
    refine draws_bind left.names (draws_ofCollection source label b.ctes) ?_ fun other => ?_
    · exact (List.perm_append_comm.cons label).subperm
    refine draws_bind left.names (draws_optional nested other) (.refl _) fun last => ?_
    refine draws_bind (left.names ++ cteNames last.ctes) (draws_finishDocument last) ?_ fun right =>
      draws_union left right last.ctes
    rw [names, List.subperm_iff_count]
    intro x
    simp only [List.count_append]
    omega
  | .merge _, _ => draws_fail _
  | .out _, _ => draws_fail _

lemma draws_stages : ∀ (ss : List Stage) (b : Draft), (stages ss b).Draws b.names names
  | [], _ => draws_same rfl
  | s :: rest, b => draws_seq (draws_inStage (draws_stage s b)) (draws_stages rest)

lemma draws_optional : ∀ (o : Option (List Stage)) (b : Draft), (optional o b).Draws b.names names
  | none, _ => draws_same rfl
  | some ss, b => draws_stages ss b

lemma draws_branches : ∀ (fs : List (Path × List Stage)) (cte : String) (input : Scope)
    (ctes : List Cte), (branches fs cte input ctes).Draws (cteNames ctes) fun r => cteNames r.2
  | [], _, _, _ => draws_pure (.refl _)
  | f :: rest, cte, input, ctes => by
    refine draws_seq (draws_branch f cte input ctes) fun r => ?_
    refine draws_seq (draws_branches rest cte input r.2) fun r' => ?_
    exact draws_pure (.refl _)

lemma draws_branch : ∀ (f : Path × List Stage) (cte : String) (input : Scope) (ctes : List Cte),
    (branch f cte input ctes).Draws (cteNames ctes) fun r => cteNames r.2
  | (name, ss), cte, input, ctes => by
    refine draws_seq (draws_facetBranch cte input ctes) fun b => ?_
    refine draws_seq (draws_stages ss b) fun b' => draws_then fun entry => draws_pure ?_
    exact (List.sublist_append_left _ _).subperm

end

end Draft

/-! ## Statements -/

open Query Render

/-- The aliases in a statement, at any depth, and the names of its subqueries. -/
def Statement.names : Statement → List String
  | .query q => q.names
  | .insert target _ q => target.label.toList ++ q.names
  | .merge m => m.target.label.toList ++ m.sourceAlias :: m.source.names

/-- The names that are not handed out: those of the outermost collection and of the two sides of a
merge. -/
def reservedNames : List String :=
  [baseAlias, Merge.targetAlias, Merge.sourceAlias]

lemma Query.names_withCtes (q : Query) (ctes : List Cte) :
    (names { q with ctes }).Subperm (q.names ++ cteNames ctes) := by
  rw [names_eq, names_eq, List.subperm_iff_count]
  intro x
  simp only [List.count_append]
  omega

lemma Draft.draws_documents (b : Draft) : b.documents.Draws b.names Query.names := by
  refine draws_bind (cteNames b.ctes) b.draws_finishDocument List.perm_append_comm.subperm ?_
  exact fun query => draws_pure (query.names_withCtes b.ctes)

open Result in
lemma Merge.ensures_names (m : Merge) (t : Target) (query : Query) :
    Grants (m.statement t query) fun s => s.names = [targetAlias, sourceAlias] ++ query.names := by
  refine ensures_then fun matched => ensures_then fun unmatched => ?_
  exact ensures_ite (ensures_then fun _ => ensures_pure rfl) (ensures_pure rfl)

namespace Pipeline

lemma draws_finish (t : Target) (b : Draft) (terminal : Option Stage) :
    (finish t b terminal).Draws ([Merge.targetAlias, Merge.sourceAlias] ++ b.names)
      Statement.names := by
  have hgiven : b.names.Subperm ([Merge.targetAlias, Merge.sourceAlias] ++ b.names) :=
    (List.sublist_append_right _ _).subperm
  fun_cases finish t b terminal with
  | case1 =>
    refine draws_bind (cteNames b.ctes) b.draws_finish ?_ ?_
    · exact List.perm_append_comm.subperm.trans hgiven
    · exact fun query => draws_pure (query.names_withCtes b.ctes)
  | case2 spec =>
    refine draws_inStage (draws_then fun _ => ?_)
    exact draws_seq (b.draws_documents.weaken hgiven) fun query => draws_pure (.refl _)
  | case3 spec =>
    refine draws_inStage (draws_bind [Merge.targetAlias, Merge.sourceAlias] b.draws_documents ?_ ?_)
    · exact List.perm_append_comm.subperm
    · refine fun query => draws_lift ((spec.ensures_names t query).imp fun s hs => ?_)
      rw [hs]
      exact List.perm_append_comm.subperm
  | case4 s => exact draws_fail _

lemma draws_statement (p : Pipeline) (t : Target) :
    (p.statement t).Draws reservedNames Statement.names := by
  rw [statement]
  refine draws_bind [Merge.targetAlias, Merge.sourceAlias] (Draft.draws_ofCollection _ baseAlias [])
    (.refl _) fun base => ?_
  refine draws_bind [Merge.targetAlias, Merge.sourceAlias] (Draft.draws_stages _ base) (.refl _) ?_
  exact fun b => (draws_finish t b _).weaken List.perm_append_comm.subperm

/-- Reserved names have no underscore, and the names that are handed out have one. -/
lemma nodup_reserved_names (e : Emission) : (reservedNames ++ e.names).Nodup := by
  refine List.Nodup.append (by decide) (nodup_namesFrom e.aliases) ?_
  intro name hreserved hname
  have hplain : ∀ name ∈ reservedNames, '_' ∉ name.toList := by decide
  exact hplain name hreserved (underscore_mem_of_mem hname)

/-- The names in a statement are distinct and come from those that are reserved or handed out. -/
lemma nodup_statement_names {p : Pipeline} {t : Target} {o : Options} {s : Statement} {e : Emission}
    (h : p.compilation t o = .ok s e) : s.names.Nodup ∧ s.names ⊆ reservedNames ++ e.names := by
  rw [Pipeline.compilation_eq_run] at h
  obtain ⟨new, hnew, hnames⟩ := draws_statement p t h
  obtain rfl : e.names = new := hnew
  refine ⟨?_, hnames.subset⟩
  obtain ⟨kept, hperm, hsub⟩ := hnames
  exact hperm.nodup_iff.1 (hsub.nodup (nodup_reserved_names e))

/-- No two names collide, whatever the collections are called. Every name that is handed out in a
compilation joins the names before it, none is forgotten, and in the end all of them and the
reserved names are distinct. So the aliases of the sources in a statement and the names of its
subqueries, which are taken from these names, are distinct too. -/
theorem names_never_collide (p : Pipeline) (t : Target) (o : Options) :
    (∀ base env e, ∃ name e', ((Render.newAlias base).run env).run e = .ok name e' ∧
      e'.names = e.names ++ [name]) ∧
    (∀ {α : Type} (r : Render α) env e,
      e.names <+: (Emission.final ((r.run env).run e)).names) ∧
    (reservedNames ++ (Emission.final (p.compilation t o)).names).Nodup ∧
    ∀ s e, p.compilation t o = .ok s e → s.names.Nodup ∧ s.names ⊆ reservedNames ++ e.names := by
  refine ⟨newAlias_names, fun r env e => ?_, nodup_reserved_names _, ?_⟩
  · obtain ⟨new, hnew⟩ := Emission.exists_names_eq_append (r.grows env e)
    exact ⟨new, hnew.symm⟩
  · exact fun s e h => nodup_statement_names h

/-- A pipeline over collections that are called like names that are handed out. -/
def clashing : Pipeline where
  source := some "base"
  stages := [.lookup ⟨"q", ⟨["x"]⟩, ⟨["a"]⟩, ⟨["b"]⟩⟩, .limit 5, .count ⟨["n"]⟩,
    .unionWith "q" none,
    .facet [(⟨["f"]⟩, [.unionWith "facet_1" none]), (⟨["g"]⟩, [.unwind ⟨⟨["x"]⟩, none, false⟩])],
    .lookup ⟨"facet_1", ⟨["y"]⟩, ⟨["f"]⟩, ⟨["b"]⟩⟩]

theorem clashing_names_distinct : ∃ s e, clashing.compilation {} {} = .ok s e ∧
    s.names = ["facet_1", "q_5", "q_3", "base", "q_1", "q_2", "q_4", "facet_1_4", "facet_1_5"] ∧
    s.names.Nodup ∧ s.names ⊆ reservedNames ++ e.names := by
  obtain ⟨s, e, h, hs⟩ := exists_of_yields (p := clashing) (t := {}) (o := {})
    (P := fun s => s.names =
      ["facet_1", "q_5", "q_3", "base", "q_1", "q_2", "q_4", "facet_1_4", "facet_1_5"])
    (by decide +kernel)
  exact ⟨s, e, h, hs, (names_never_collide clashing {} {}).2.2.2 s e h⟩

end Pipeline

end PipelineSql
