import PipelineSql.Proofs.RemovedFields
import PipelineSql.Proofs.RowSteps

/-!
# The order of rows

A sort is written into the query once. When the query becomes a subquery, the query around it sorts
by the same paths, which it looks up in the row that the subquery exports. Between the two, stages
may have changed that row.

Main result: the two sorts go by the same values if every stage in between spares the path of the
key, and a column that the sort calls by its name keeps its expression. The query around sorts by
the literal null exactly if the subquery exports no column to which the path leads.
-/

namespace PipelineSql

variable {σ σ' : Scope} {p k n : Path} {ρ ρ' : Fragment → Json} {label data : String} {env : Env}
  {s : Stage} {o : Origin}

/-! ## Stages that add names -/

namespace Scope

/-- Do two rows agree in all that goes by names which overlap with a path? -/
structure SameAt (k : Path) (σ σ' : Scope) : Prop where
  doc : σ'.doc = σ.doc
  bindings : σ'.bindings.filter (·.name.overlaps k) = σ.bindings.filter (·.name.overlaps k)
  listed : σ'.listed.filter (·.name.overlaps k) = σ.listed.filter (·.name.overlaps k)

lemma SameAt.refl (k : Path) (σ : Scope) : SameAt k σ σ :=
  ⟨rfl, rfl, rfl⟩

lemma SameAt.trans {σ'' : Scope} (h : SameAt k σ σ') (h' : SameAt k σ' σ'') : SameAt k σ σ'' :=
  ⟨h'.doc.trans h.doc, h'.bindings.trans h.bindings, h'.listed.trans h.listed⟩

lemma not_isWithin_of_apart (h : p.overlaps k = false) :
    k.isWithin p = false ∧ p.isWithin k = false := by
  simp only [Path.overlaps, Bool.or_eq_false_iff] at h
  exact ⟨h.2, h.1⟩

/-- What is read at a path is read in bindings whose names overlap with it. -/
lemma SameAt.readOrigin (h : SameAt k σ σ') : σ'.readOrigin k = σ.readOrigin k := by
  have hnone (b : Binding) (hb : b.name.overlaps k = false) : b.origin? k = none := by
    have hcovers : b.covers k = false := by
      obtain ⟨hw, hw'⟩ := not_isWithin_of_apart hb
      unfold Binding.covers
      cases b.deep with
      | true => exact hw
      | false =>
        refine decide_eq_false fun he => ?_
        rw [he, k.isWithin_self] at hw
        cases hw
    rw [Binding.origin?, hcovers]
    rfl
  have hbase : σ'.baseOrigin k = σ.baseOrigin k := by rw [baseOrigin, baseOrigin, h.doc]
  rw [Scope.readOrigin, Scope.readOrigin, hbase, ← findSome?_filter hnone σ'.bindings.reverse,
    ← findSome?_filter hnone σ.bindings.reverse, List.filter_reverse, List.filter_reverse,
    h.bindings]

/-- What is exported at a path comes from entries whose names overlap with it. -/
lemma SameAt.exportOrigin (h : SameAt k σ σ') : σ'.exportOrigin k = σ.exportOrigin k := by
  have hentries : σ'.entries.filter (·.name.overlaps k) = σ.entries.filter (·.name.overlaps k) := by
    rw [entries, entries, Entry.filter_distinct (·.overlaps k),
      Entry.filter_distinct (·.overlaps k)]
    exact congrArg Entry.distinct h.listed
  rw [Scope.exportOrigin, Scope.exportOrigin, h.doc]
  cases hdoc : σ.doc with
  | some doc =>
    have hafter (o : Origin) (e : Entry) :
        (if e.name.overlaps k then o.after k e else o) = o.after k e := by
      cases he : e.name.overlaps k with
      | true => rfl
      | false =>
        obtain ⟨hw, hw'⟩ := not_isWithin_of_apart he
        simp [Origin.after, hw, hw']
    have hfold (σ : Scope) (o : Origin) : σ.entries.foldl (Origin.after k) o =
        (σ.entries.filter (·.name.overlaps k)).foldl (Origin.after k) o := by
      rw [List.foldl_filter]
      simp only [hafter]
    have hbase : σ'.baseOrigin k = σ.baseOrigin k := by rw [baseOrigin, baseOrigin, h.doc]
    simp only [rowOrigin]
    rw [hfold σ', hfold σ, hentries, hbase]
  | none =>
    have hnone (e : Entry) (he : e.name.overlaps k = false) : e.origin? k = none := by
      simp [Entry.origin?, not_isWithin_of_apart he]
    simp only
    rw [← findSome?_filter hnone σ'.entries.reverse, ← findSome?_filter hnone σ.entries.reverse,
      List.filter_reverse, List.filter_reverse, hentries]

/-- The last entry of the name stays. -/
lemma SameAt.find? (h : SameAt k σ σ') :
    σ'.listed.reverse.find? (·.name = k) = σ.listed.reverse.find? (·.name = k) := by
  have hfind (es : List Entry) : (es.filter (·.name.overlaps k)).find? (·.name = k) =
      es.find? (·.name = k) := by
    rw [List.find?_filter]
    refine congrArg (es.find? ·) (funext fun e => ?_)
    by_cases he : e.name = k
    · simp [he, Path.overlaps, k.isWithin_self]
    · simp [he]
  rw [← hfind σ'.listed.reverse, ← hfind σ.listed.reverse, List.filter_reverse, List.filter_reverse,
    h.listed]

lemma sameAt_lookup {l : Found} (h : l.asField.overlaps k = false) :
    SameAt k σ { σ with lookups := σ.lookups ++ [l] } where
  doc := rfl
  bindings := by simp [bindings, Binding.ofFound, h]
  listed := by simp [listed, pending, Entry.ofFound, h]

lemma sameAt_unwind {u : Unwound} (h : u.path.overlaps k = false)
    (hi : ∀ i ∈ u.index, i.overlaps k = false) :
    SameAt k σ { σ with unwinds := σ.unwinds ++ [u] } where
  doc := rfl
  bindings := by
    cases hu : u.index with
    | none => simp [bindings, Binding.ofUnwound, h, hu]
    | some i => simp [bindings, Binding.ofUnwound, h, hu, hi i hu]
  listed := by
    cases hu : u.index with
    | none => simp [listed, pending, Entry.ofUnwound, h, hu]
    | some i => simp [listed, pending, Entry.ofUnwound, h, hu, hi i hu]

lemma sameAt_compute {c : Computed} (h : c.name.overlaps k = false) :
    SameAt k σ (σ.compute c) := by
  have hkeep : (σ.computed.filter (·.name != c.name)).filter (·.name.overlaps k) =
      σ.computed.filter (·.name.overlaps k) := by
    rw [List.filter_filter]
    refine List.filter_congr fun c' _ => ?_
    by_cases hc : c'.name = c.name
    · simp [hc, h]
    · simp [hc]
  refine ⟨rfl, ?_, ?_⟩
  · simp only [bindings, compute, List.filter_append, List.map_append, List.filter_map,
      Function.comp_def, Binding.ofComputed, hkeep]
    simp [h]
  · simp only [listed, pending, compute, List.filter_append, List.map_append, List.filter_map,
      Function.comp_def, Entry.ofComputed, hkeep]
    simp [h]

lemma sameAt_foldl_compute {cs : List Computed} (h : ∀ c ∈ cs, c.name.overlaps k = false) :
    SameAt k σ (cs.foldl compute σ) := by
  induction cs generalizing σ with
  | nil => exact .refl k σ
  | cons c cs ih =>
    obtain ⟨hc, hcs⟩ := List.forall_mem_cons.1 h
    exact (sameAt_compute hc).trans (ih hcs)

/-! ## Stages that spare a path -/

/-- Does a projection pass on what a path leads to? The last field that it selects to which the path
leads is passed on as it is, and the path is read where that field is. -/
def PassesOn (fields : List (Path × ProjectField)) (σ : Scope) (k n : Path) : Prop :=
  (selectedFields σ fields).reverse.find? (fun x => k.isWithin x.1) =
    some (n, .field { path := n }) ∧
  ∀ b ∈ σ.bindings, b.covers k = b.covers n

end Scope

/-- Does a stage that keeps the order leave alone what a path leads to? -/
def Stage.Spares (k : Path) (σ : Scope) : Stage → Prop
  | .filter _ | .redact _ | .limit _ | .skip _ => True
  | .lookup spec => spec.asField.overlaps k = false
  | .graphLookup spec => spec.asField.overlaps k = false
  | .unwind spec => spec.path.overlaps k = false ∧ ∀ i ∈ spec.index, i.overlaps k = false
  | .addFields fields => ∀ x ∈ fields, x.1.overlaps k = false
  | .windowFields spec => ∀ x ∈ spec.outputs, x.1.overlaps k = false
  | .project fields =>
    match Projection.mode fields with
    | .inclusion => ∃ n, σ.PassesOn fields k n
    | .exclusion => ∀ n ∈ fields.map Prod.fst, n.overlaps k = false
  | .unset names => ∀ n ∈ names, n.overlaps k = false
  | _ => False

namespace Scope

/-- The text of a field has, at every path below the field that is read where the field is, the
value of that path. -/
def ReadsField (ρ : Fragment → Json) (env : Env) (σ : Scope) (n : Path) : Prop :=
  ∀ p : Path, p.isWithin n → (∀ b ∈ σ.bindings, b.covers p = b.covers n) →
    ((ρ ({ env with scope := σ }.fieldJson n).1).at? (p.segments.drop n.segments.length)).getD
      .null = ((σ.resolve p false).value? ρ).getD .null

/-- The text of the document without some fields has, at every path apart from them, the value of
the row. -/
def ReadsRest (ρ : Fragment → Json) (d : Dialect) (σ : Scope) (names : List Path) : Prop :=
  ∀ p : Path, (∀ n ∈ names, n.overlaps p = false) →
    (ρ (withoutFields (σ.documentValue d) names)).at? p.segments = (σ.row ρ).at? p.segments

end Scope

/-- Do the texts that a stage writes have the values that they stand for? -/
def Stage.Faithful (ρ : Fragment → Json) (env : Env) (σ : Scope) : Stage → Prop
  | .project fields =>
    match Projection.mode fields with
    | .inclusion => ∀ x ∈ selectedFields σ fields, σ.ReadsField ρ env x.1
    | .exclusion => σ.ReadsRest ρ env.dialect (fields.map Prod.fst)
  | .unset names => σ.ReadsRest ρ env.dialect names
  | _ => True

namespace Scope

lemma Step.sameAt (h : σ.Step env s σ') (hs : s.reshapes = false) (hk : s.Spares k σ) :
    SameAt k σ σ' := by
  cases h with
  | filter | redact | limit | skip => exact .refl k σ
  | lookup => exact sameAt_lookup hk
  | graphLookup => exact sameAt_lookup hk
  | unwind => exact sameAt_unwind hk.1 hk.2
  | addFields hnames =>
    refine sameAt_foldl_compute fun c hc => ?_
    obtain ⟨x, hx, hname⟩ := List.mem_map.1 (hnames ▸ List.mem_map_of_mem hc)
    exact hname ▸ hk x hx
  | windowFields hnames =>
    refine sameAt_foldl_compute fun c hc => ?_
    obtain ⟨x, hx, hname⟩ := List.mem_map.1 (hnames ▸ List.mem_map_of_mem hc)
    exact hname ▸ hk x hx
  | keep | drop | unset | replaceRoot => cases hs

/-- The row still has, at the path, the value of an origin, and reads it where it exports it. -/
structure Holds (ρ : Fragment → Json) (k : Path) (o : Origin) (σ : Scope) : Prop where
  coherent : σ.readOrigin k = σ.exportOrigin k
  value : ((σ.readOrigin k).value? ρ).getD .null = (o.value? ρ).getD .null
  present : σ.exportOrigin k = .nothing → o = .nothing

lemma SameAt.holds (h : SameAt k σ σ') (hσ : σ.Holds ρ k o) : σ'.Holds ρ k o := by
  refine ⟨?_, ?_, ?_⟩
  · rw [h.readOrigin, h.exportOrigin, hσ.coherent]
  · rw [h.readOrigin, hσ.value]
  · rw [h.exportOrigin]
    exact hσ.present

/-- The column of the field that is passed on. -/
lemma findSome?_selected {xs : List (Path × Expr)} {cs : List Column}
    (h : List.Forall₂ (σ.Selects env) xs cs)
    (hfind : xs.find? (fun x => k.isWithin x.1) = some (n, .field { path := n })) :
    cs.findSome? (fun c => (Binding.ofColumn c).origin? k) =
      some (.below k n ({ env with scope := σ }.fieldJson n).1) := by
  induction h with
  | nil => cases hfind
  | @cons x c xs cs hx _ ih =>
    obtain ⟨hname, f, hvalue, hfield⟩ := hx
    have horigin : (Binding.ofColumn c).origin? k =
        if k.isWithin x.1 then some (.below k x.1 f) else none := by
      simp [Binding.ofColumn, hvalue, Binding.origin?, Binding.covers, hname]
    rw [List.findSome?_cons, horigin]
    rw [List.find?_cons] at hfind
    cases hw : k.isWithin x.1 with
    | true =>
      rw [hw] at hfind
      obtain rfl := Option.some.inj hfind
      rw [hfield rfl]
      rfl
    | false =>
      rw [hw] at hfind
      exact ih hfind

lemma holds_selected {fields : List (Path × ProjectField)} {columns : List Column}
    (hp : k.IsDotted) (hcolumns : List.Forall₂ (σ.Selects env) (selectedFields σ fields) columns)
    (hpass : σ.PassesOn fields k n) (hreads : ∀ x ∈ selectedFields σ fields, σ.ReadsField ρ env x.1)
    (hσ : σ.Holds ρ k o) : ({ columns } : Scope).Holds ρ k o := by
  obtain ⟨hfind, hcovers⟩ := hpass
  have horigin : ({ columns } : Scope).readOrigin k =
      .below k n ({ env with scope := σ }.fieldJson n).1 := by
    rw [readOrigin_columns, findSome?_selected (List.rel_reverse hcolumns) hfind]
    rfl
  have hmem := List.mem_reverse.1 (List.mem_of_find?_eq_some hfind)
  have hwithin : k.isWithin n = true := by
    have h := List.find?_some hfind
    exact h
  refine ⟨coherent_columns columns k, ?_, ?_⟩
  · rw [horigin, ← hσ.value, ← value?_resolve hp]
    exact hreads _ hmem k hwithin hcovers
  · rw [← coherent_columns, horigin]
    exact nofun

lemma Holds.exportOrigin_ne_mixed (h : σ.Holds ρ k o) : σ.exportOrigin k ≠ .mixed := by
  rw [← h.coherent]
  exact σ.readOrigin_ne_mixed k

lemma Removes.holds {names : List Path} {d : Dialect} (h : σ.Removes d names σ')
    (hp : k.IsDotted) (hspares : ∀ n ∈ names, n.overlaps k = false)
    (hreads : σ.ReadsRest ρ d names) (hfits : σ.Fits ρ) (hσ : σ.Holds ρ k o) :
    σ'.Holds ρ k o := by
  cases h with
  | document hdoc =>
    obtain ⟨hread, hexport⟩ := origins_document
      (.computed (withoutFields (σ.documentValue d) names)) k
    refine ⟨hread.trans hexport.symm, ?_, ?_⟩
    · rw [hread, ← hσ.value, hσ.coherent, ← value?_row hp hfits hdoc hσ.exportOrigin_ne_mixed,
        ← hreads k hspares]
      rfl
    · rw [hexport]
      exact nofun
  | columns hdoc =>
    have horigin : (σ.withoutColumns names).readOrigin k = σ.exportOrigin k :=
      readOrigin_withoutColumns hdoc fun n hn => (not_isWithin_of_apart (hspares n hn)).1
    refine Holds.mk (σ := σ.withoutColumns names) (coherent_columns _ k) ?_ ?_
    · rw [horigin, ← hσ.coherent, hσ.value]
    · rw [withoutColumns, ← coherent_columns, ← withoutColumns, horigin]
      exact hσ.present

/-- A stage that spares a path leaves what the row has there. -/
lemma Step.holds (h : σ.Step env s σ') (hp : k.IsDotted) (hspares : s.Spares k σ)
    (hfaithful : s.Faithful ρ env σ) (hfits : σ.Fits ρ) (hσ : σ.Holds ρ k o) :
    σ'.Holds ρ k o := by
  cases hs : s.reshapes with
  | false => exact (h.sameAt hs hspares).holds hσ
  | true =>
    cases h with
    | keep hmode hcolumns =>
      simp only [Stage.Spares, hmode] at hspares
      simp only [Stage.Faithful, hmode] at hfaithful
      obtain ⟨n, hpass⟩ := hspares
      exact holds_selected hp hcolumns hpass hfaithful hσ
    | drop hmode hrem =>
      simp only [Stage.Spares, hmode] at hspares
      simp only [Stage.Faithful, hmode] at hfaithful
      exact hrem.holds hp hspares hfaithful hfits hσ
    | unset hrem => exact hrem.holds hp hspares hfaithful hfits hσ
    | replaceRoot => exact hspares.elim
    | _ => cases hs

/-- Where the row keeps to the name, the select list keeps the expression. -/
lemma ByName.selected {f : Fragment} (h : σ.ByName k f) (hσ : σ.OneShape) (hsame : SameAt k σ σ')
    (d : Dialect) : .named f k.toString ∈ σ'.selectItems d data ∧
      ∀ e ∈ σ'.entries, e.name = k → e.value = f := by
  obtain ⟨hpending, json, hcolumn⟩ := h.column
  have hfind : σ'.listed.reverse.find? (·.name = k) = some ⟨k, f, json, false⟩ := by
    have hnone : σ.pending.reverse.find? (·.name = k) = none := by simpa using hpending
    rw [hsame.find?, listed, List.reverse_append, List.find?_append, hnone, Option.none_or, hcolumn]
  have hdoc : σ'.doc = none := by
    rw [hsame.doc]
    cases hdoc : σ.doc with
    | none => rfl
    | some doc =>
      rw [hσ (by rw [isDocument, hdoc]; rfl)] at hcolumn
      cases hcolumn
  refine ⟨?_, fun e he hname => ?_⟩
  · have hmem : ⟨k, f, json, false⟩ ∈ σ'.entries := Entry.mem_distinct_iff.2 hfind
    rw [selectItems, hdoc]
    exact List.mem_append_left _ (List.mem_map_of_mem hmem)
  · have he := Entry.mem_distinct_iff.1 he
    rw [hname] at he
    rw [Option.some.inj (he.symm.trans hfind)]

end Scope

/-! ## Runs -/

namespace Draft

open Render

variable {b b₀ b' : Draft} {P : Env → Stage → Scope → Prop} {keys : List SortKey} {own : Bool}

/-- A draft after stages that extended its query, each of which has a property over its row. -/
inductive Since (P : Env → Stage → Scope → Prop) (b₀ : Draft) : Draft → Prop where
  | refl : Since P b₀ b₀
  | grow {env : Env} {s : Stage} {b b' : Draft} : Since P b₀ b → P env s b.scope →
    Grows env s b b' → Since P b₀ b'

/-- Every stage. -/
def AnyStage : Env → Stage → Scope → Prop :=
  fun _ _ _ => True

/-- The stages that spare a path. -/
def Sparing (k : Path) : Env → Stage → Scope → Prop :=
  fun _ s σ => s.Spares k σ

/-- The stages that spare a path and write texts with the values that they stand for. -/
def SparingFaithful (ρ : Fragment → Json) (k : Path) : Env → Stage → Scope → Prop :=
  fun env s σ => s.Spares k σ ∧ s.Faithful ρ env σ ∧ σ.Fits ρ

/-- The drafts whose `ORDER BY` was just written: by a sort, where columns of the query go by their
names, or around a query that was sorted before. -/
inductive SortedBy (keys : List SortKey) : Bool → Draft → Prop where
  | sort {b b₀ : Draft} {hint : Option Nat} {env : Env} {e e' : Emission} : b.Reachable →
    ((stage (.sort keys hint) b).run env).run e = .ok b₀ e' → SortedBy keys true b₀
  | wrap {own : Bool} {b₀ b : Draft} {env : Env} {label : String} : SortedBy keys own b₀ →
    Since AnyStage b₀ b → SortedBy keys false (b.rewrapped env label)

/-- Stages that extend a query leave its order. -/
lemma Since.order (h : Since P b₀ b) : b.query.orderBy = b₀.query.orderBy ∧
    b.ordering = b₀.ordering ∧ b.sortedByAlias = b₀.sortedByAlias := by
  induction h with
  | refl => exact ⟨rfl, rfl, rfl⟩
  | grow _ _ hgrows ih =>
    exact ⟨hgrows.orderBy.trans ih.1, hgrows.ordering.trans ih.2.1,
      hgrows.sortedByAlias.trans ih.2.2⟩

/-- What the row has at a path stays if all stages spare it. -/
lemma Since.holds (h : Since (SparingFaithful ρ k) b₀ b) (hk : k.IsDotted)
    (h₀ : b₀.scope.Holds ρ k o) : b.scope.Holds ρ k o := by
  induction h with
  | refl => exact h₀
  | grow _ hs hgrows ih => exact hgrows.row.holds hk hs.1 hs.2.1 hs.2.2 ih

/-- In a query that is sorted by a name, no stage replaces the select list. -/
lemma Since.sameAt (h : Since (Sparing k) b₀ b) (hflag : b₀.sortedByAlias = true) :
    Scope.SameAt k b₀.scope b.scope := by
  induction h with
  | refl => exact .refl k _
  | @grow env s b b' hsince hs hgrows ih =>
    have hreshapes : s.reshapes = false := by
      refine Bool.eq_false_iff.2 fun hreshapes => ?_
      have hfalse := hgrows.notByAlias hreshapes
      rw [hsince.order.2.2, hflag] at hfalse
      cases hfalse
    exact ih.trans (hgrows.row.sameAt hreshapes hs)

lemma SortedBy.ordered (h : SortedBy keys own b₀) : b₀.Ordered own ∧ b₀.ordering = keys := by
  induction h with
  | @sort b b₀ hint env e e' _ hrun =>
    rw [stage] at hrun
    exact yields_ordered b keys hint hrun
  | @wrap own b₀ b env label _ hsince ih =>
    exact ⟨ordered_rewrapped b env label, hsince.order.2.1.trans ih.2⟩

lemma SortedBy.oneShape (h : SortedBy keys own b₀) : b₀.scope.OneShape := by
  cases h with
  | sort hb hrun => exact (hb.stage hrun).oneShape
  | wrap => exact Scope.oneShape_wrapped _ _ _

/-- The query around a sorted one reads every key where it has it. -/
lemma SortedBy.coherent (h : SortedBy keys own b₀)
    (hsort : own = true → b₀.scope.readOrigin k = b₀.scope.exportOrigin k) :
    b₀.scope.readOrigin k = b₀.scope.exportOrigin k := by
  cases h with
  | sort => exact hsort rfl
  | wrap => exact Scope.coherent_wrapped _ _ _ k

/-- A query that sorts by a name knows. -/
lemma SortedBy.sortedByAlias {key : SortKey} {f : Fragment} (h : SortedBy keys true b₀)
    (hkey : key ∈ keys) (hf : b₀.scope.ByName key.path f) : b₀.sortedByAlias = true := by
  obtain ⟨⟨⟨env, horder⟩, hflag⟩, hkeys⟩ := h.ordered
  obtain ⟨json, -, hown, -⟩ := hf
  rw [hflag, horder, ← orderTerms_snd, hkeys]
  simp only [orderTerms, List.any_map, List.any_eq_true]
  exact ⟨key, hkey, by simp [sortValue, hown, isAlias, Fragment.ident, Fragment.ofToken]⟩

/-- A stage that keeps the order extends the sorted query, or the one around it. -/
lemma Since.stage {s : Stage} {env : Env} (h₀ : SortedBy keys own b₀) (h : Since AnyStage b₀ b)
    (hs : s.keepsOrder = true) : (stage s b).Yields env fun b' => Since AnyStage b₀ b' ∨
      ∃ label, SortedBy keys false (b.rewrapped env label) ∧
        Since AnyStage (b.rewrapped env label) b' := by
  refine (grows_stage hs b).imp ?_
  rintro b' (hgrows | ⟨label, hgrows⟩)
  · exact .inl (h.grow trivial hgrows)
  · exact .inr ⟨label, h₀.wrap h, Since.refl.grow trivial hgrows⟩

/-- A run of stages that keep the order leads to a query that was sorted once and then extended. -/
lemma SortedBy.stages {ss : List Stage} {env : Env} (h₀ : SortedBy keys own b₀)
    (h : Since AnyStage b₀ b) (hss : ∀ s ∈ ss, s.keepsOrder = true) :
    (stages ss b).Yields env fun b' => ∃ own b₁, SortedBy keys own b₁ ∧ Since AnyStage b₁ b' := by
  induction ss generalizing own b₀ b with
  | nil =>
    rw [Draft.stages]
    exact yields_pure ⟨own, b₀, h₀, h⟩
  | cons s ss ih =>
    obtain ⟨hs, hss⟩ := List.forall_mem_cons.1 hss
    rw [Draft.stages]
    refine yields_bind (h.stage h₀ hs) ?_
    rintro b₁ (h₁ | ⟨label, h₁, hsince⟩)
    · exact ih h₀ h₁ hss
    · exact ih h₁ hsince hss

/-- How a query that was sorted in one draft and has become another carries a key of the sort. -/
structure CarriesKey (own : Bool) (b₀ b : Draft) (k : Path) : Prop where
  /-- The query around sorts by null exactly if nothing is exported to which the path leads. -/
  null_iff : ∀ env label,
    (sortValue env (b.rewrapped env label).scope k false).1 = Fragment.null ↔ ¬ b.scope.Exported k
  /-- If a sort reads the key where the row has it and all stages since then spare it, the query
  around sorts by the value by which the query is sorted, and by null only if there was none. -/
  value : ∀ ρ, k.IsDotted → (own = true → b₀.scope.readOrigin k = b₀.scope.exportOrigin k) →
    Since (SparingFaithful ρ k) b₀ b → b.scope.Fits ρ →
      (¬ b.scope.Exported k → b₀.scope.resolve k false = .missing) ∧
      ∀ env label ρ', b.scope.Exports ρ label env.dataColumn ρ' →
        (((b.rewrapped env label).scope.resolve k false).value? ρ').getD .null =
          ((b₀.scope.resolve k false).value? ρ).getD .null
  /-- The sort calls the key by its name only if it is a column of the query. If all stages since
  then spare it, the name is still selected for the expression, and for no other. -/
  byName : own = true → b₀.scope.resolve k true = b₀.scope.resolve k false ∨
    ∃ f, b₀.scope.ByName k f ∧ (Since (Sparing k) b₀ b → ∀ d data,
      .named f k.toString ∈ b.scope.selectItems d data ∧
        ∀ e ∈ b.scope.entries, e.name = k → e.value = f)

lemma value_of_since (hk : k.IsDotted) (hread : b₀.scope.readOrigin k = b₀.scope.exportOrigin k)
    (h : Since (SparingFaithful ρ k) b₀ b) (hfits : b.scope.Fits ρ) :
    (¬ b.scope.Exported k → b₀.scope.resolve k false = .missing) ∧
    ∀ env label ρ', b.scope.Exports ρ label env.dataColumn ρ' →
      (((b.rewrapped env label).scope.resolve k false).value? ρ').getD .null =
        ((b₀.scope.resolve k false).value? ρ).getD .null := by
  have h₀ : b₀.scope.Holds ρ k (b₀.scope.readOrigin k) :=
    ⟨hread, rfl, fun hnothing => hread.trans hnothing⟩
  have hb := h.holds hk h₀
  refine ⟨fun hnot => ?_, fun env label ρ' hexports => ?_⟩
  · exact Scope.resolve_eq_missing hk (hb.present (Scope.exportOrigin_eq_nothing_iff.2 hnot))
  · have hwrapped := Scope.value?_wrapped hk hfits hexports hb.exportOrigin_ne_mixed
    change (((b.scope.wrapped label env.dataColumn).resolve k false).value? ρ').getD .null = _
    rw [hwrapped, ← hb.coherent, hb.value, value?_resolve hk]

/-- After a sort, stages that keep the order extend the sorted query, which keeps its `ORDER BY`, or
a query around it that is sorted by the same keys. Either carries each key as `CarriesKey` says. -/
theorem sorted_query_carries_keys (h₀ : SortedBy keys own b₀) (h : Since AnyStage b₀ b) :
    (∀ s env, s.keepsOrder = true → (stage s b).Yields env fun b' => Since AnyStage b₀ b' ∨
      ∃ label, SortedBy keys false (b.rewrapped env label) ∧
        Since AnyStage (b.rewrapped env label) b') ∧
    (∀ ss env, (∀ s ∈ ss, s.keepsOrder = true) → (stages ss b).Yields env fun b' =>
      ∃ own b₁, SortedBy keys own b₁ ∧ Since AnyStage b₁ b') ∧
    (∃ env, b.query.orderBy = (orderTerms env b₀.scope keys own).1) ∧
    ∀ key ∈ keys, CarriesKey own b₀ b key.path := by
  obtain ⟨⟨⟨env, horder⟩, -⟩, hkeys⟩ := h₀.ordered
  refine ⟨fun s env hs => h.stage h₀ hs, fun ss env hss => h₀.stages h hss, ⟨env, ?_⟩,
    fun key hkey => ⟨?_, ?_, ?_⟩⟩
  · rw [h.order.1, horder, hkeys]
  · exact fun env label => Scope.sortValue_wrapped_eq_null_iff env
  · exact fun ρ hk hread hsince hfits => value_of_since hk (h₀.coherent hread) hsince hfits
  · rintro rfl
    refine (b₀.scope.resolve_own key.path).imp_right ?_
    rintro ⟨f, hf⟩
    refine ⟨f, hf, fun hsince d data => ?_⟩
    exact hf.selected h₀.oneShape (hsince.sameAt (h₀.sortedByAlias hkey hf)) d

/-- The value of a stored column or of a field of it in dot notation. -/
def storedText (doc : Json) : Fragment → Json
  | .token (.column _ _) :: fields =>
    (doc.at? (fields.filterMap fun
      | .token (.step s) => some s
      | _ => none)).getD .null
  | _ => .null

/-- The text of a member of a stored object has its value. -/
lemma readsField_stored (es : List (String × Json)) (env : Env) (label data : String) {n : String}
    (hn : n ≠ "") :
    (Scope.document label data).ReadsField (storedText (.obj es)) env ⟨[n]⟩ := by
  intro p hw _
  obtain ⟨rest, hrest⟩ := Path.isWithin_iff.1 hw
  have hsteps (ks : List String) : steps (n :: ks) = n :: ks := if_neg (by simp [hn])
  have htext : storedText (.obj es) ({ env with scope := .document label data }.fieldJson ⟨[n]⟩).1 =
      ((Json.obj es).get? n).getD .null := by
    simp [Env.fieldJson, Env.resolve, Scope.document, Scope.resolve, DocSource.resolve, hsteps,
      Location.dotFragment, DocSource.fragment, Fragment.column, Fragment.ofToken, storedText,
      Json.at?]
  have hvalue : (((Scope.document label data).resolve p false).value? (storedText (.obj es))) =
      (Json.obj es).get? n >>= Json.at? rest := by
    simp [Scope.document, Scope.resolve, DocSource.resolve, ← hrest, hsteps, Resolved.value?,
      DocSource.fragment, Fragment.column, Fragment.ofToken, storedText, Json.at?]
  rw [htext, hvalue, ← hrest]
  cases (Json.obj es).get? n with
  | some v => rfl
  | none => cases rest <;> rfl

/-- Orders that are projected to the field by which they are sorted and another. -/
theorem projectedOrders_sorted_alike :
    let key : SortKey := ⟨⟨["a"]⟩, .ascending⟩
    let ρ := storedText (.obj [("a", .bool true), ("b", .arr [])])
    ∃ b₀ b : Draft, SortedBy [key] true b₀ ∧ Since (SparingFaithful ρ key.path) b₀ b ∧
      b.scope.isDocument = false ∧ ∀ env label ρ', b.scope.Exports ρ label env.dataColumn ρ' →
        (((b.rewrapped env label).scope.resolve key.path false).value? ρ').getD .null =
          .bool true := by
  intro key ρ
  let env := Env.of { collection := "orders" } {}
  obtain ⟨b₀, h₀, hscope, hflag⟩ : ∃ b₀ : Draft, SortedBy [key] true b₀ ∧
      b₀.scope = .document baseAlias "data" ∧ b₀.sortedByAlias = false := by
    have hbase : ((ofCollection "orders" baseAlias []).run env).run {} = .ok _ _ := rfl
    have hsorts {b} (hb : b.Reachable) {b₀ e}
        (h : ((stage (.sort [key] none) b).run env).run {} = .ok b₀ e) : SortedBy [key] true b₀ :=
      .sort hb h
    exact ⟨_, hsorts (.collection hbase) rfl, rfl, rfl⟩
  let stored (n : String) : Column :=
    ⟨⟨[n]⟩, .output [.token (.column "base" "data"), .token (.step n)], false⟩
  let b := b₀.withScope { columns := [stored "_id", stored "a", stored "b"] }
  have hgrows : Grows env (.project [(⟨["a"]⟩, .keep), (⟨["b"]⟩, .keep)]) b₀ b := by
    refine ⟨?_, rfl, rfl, rfl, fun _ => hflag⟩
    rw [hscope]
    exact .keep rfl (.cons ⟨rfl, _, rfl, fun _ => rfl⟩ (.cons ⟨rfl, _, rfl, fun _ => rfl⟩
      (.cons ⟨rfl, _, rfl, fun _ => rfl⟩ .nil)))
  have hspares : SparingFaithful ρ key.path env (.project [(⟨["a"]⟩, .keep), (⟨["b"]⟩, .keep)])
      b₀.scope := by
    rw [hscope]
    have hreads {n : String} (hn : n ≠ "") :
        Scope.ReadsField ρ env (.document baseAlias "data") ⟨[n]⟩ :=
      readsField_stored _ env _ _ hn
    refine ⟨⟨⟨["a"]⟩, rfl, nofun⟩, ?_, trivial⟩
    exact List.forall_mem_cons.2 ⟨hreads (by decide), List.forall_mem_cons.2 ⟨hreads (by decide),
      List.forall_mem_singleton.2 (hreads (by decide))⟩⟩
  have hsince := Since.refl.grow hspares hgrows
  have hfits : b.scope.Fits ρ := by
    refine ⟨?_, ?_, ?_, trivial⟩
    all_goals exact ⟨nofun, fun _ _ => trivial⟩
  have hcarries := (sorted_query_carries_keys h₀ (.grow .refl trivial hgrows)).2.2.2 key
    (List.mem_singleton_self key)
  have hread : b₀.scope.readOrigin key.path = b₀.scope.exportOrigin key.path := by rw [hscope]; rfl
  obtain ⟨-, hvalue⟩ := hcarries.value ρ (by decide) (fun _ => hread) hsince hfits
  refine ⟨b₀, b, h₀, hsince, rfl, fun env label ρ' hexports => ?_⟩
  rw [hvalue env label ρ' hexports, hscope]
  rfl

/-- A projection to another field makes the query around sort by null, and a new field of the name
of a sorted column takes its place. -/
theorem reshaped_rows_lose_order :
    (∃ b e, ((ofCollection "orders" baseAlias [] >>= stages [.sort [⟨⟨["a"]⟩, .ascending⟩] none,
        .project [(⟨["b"]⟩, .keep)], .limit 3, .unwind ⟨⟨["b"]⟩, none, false⟩]).run
          (Env.of { collection := "orders" } {})).run {} = .ok b e ∧
      b.query.orderBy = [orderTerm Fragment.null .ascending]) ∧
    ∃ b e, ((ofCollection "orders" baseAlias [] >>= stages [
        .group ⟨some (.field { path := ⟨["k"]⟩ }), [(⟨["n"]⟩, .accumulate .count none)]⟩,
        .sort [⟨⟨["n"]⟩, .ascending⟩] none,
        .addFields [(⟨["n"]⟩, .field { path := ⟨["_id"]⟩ })]]).run
          (Env.of { collection := "orders" } {})).run {} = .ok b e ∧
      b.query.orderBy = [orderTerm (Fragment.ident "n") .ascending] ∧
      ∀ d data, ∃ g, b.scope.selectItems d data = [.named g "_id", .named g "n"] := by
  refine ⟨⟨_, _, rfl, rfl⟩, _, _, rfl, rfl, fun d data => ⟨_, rfl⟩⟩

end Draft

end PipelineSql
