import PipelineSql.Proofs.Exports

/-!
# Rows without some fields

When fields are removed from a row of columns, the entries at and below their names are left out,
and the others become the columns of the row. So a path that is removed is missing unless an entry
above the removed name is left: that column keeps its whole value, and the path is still read in it.
Any other path is read where the row exported it, which is where it was read before unless bindings
of different kinds hide one another.
-/

namespace PipelineSql

variable {σ : Scope} {p : Path} {names : List Path}

/-! ## Origins -/

/-- Places that have the same values are the same. -/
lemma Origin.eq_of_value?_eq {o o' : Origin} (ho : o ≠ .mixed) (ho' : o' ≠ .mixed)
    (h : ∀ ρ, o.value? ρ = o'.value? ρ) : o = o' := by
  classical
  have hsome (f : Fragment) (rest : List String) :
      (within f rest).value? (fun _ => Json.set rest (.bool true) (.obj [])) =
        some (.bool true) :=
    Json.at?_set_self _ _ _
  cases o with
  | mixed => exact absurd rfl ho
  | nothing =>
    cases o' with
    | mixed => exact absurd rfl ho'
    | nothing => rfl
    | within f rest =>
      have hvalue := h fun _ => Json.set rest (.bool true) (.obj [])
      rw [hsome] at hvalue
      cases hvalue
  | within f rest =>
    cases o' with
    | mixed => exact absurd rfl ho'
    | nothing =>
      have hvalue := h fun _ => Json.set rest (.bool true) (.obj [])
      rw [hsome] at hvalue
      cases hvalue
    | within g rest' =>
      -- Only the one value holds true, and only at the one path.
      have hvalue := h fun x => if x = f then Json.set rest (.bool true) (.obj []) else .null
      simp only [value?, if_true, Json.at?_set_self] at hvalue
      by_cases hg : g = f
      · subst hg
        rw [if_pos rfl] at hvalue
        rw [Json.eq_of_at?_set_bool hvalue.symm]
      · rw [if_neg hg] at hvalue
        cases rest' <;> cases hvalue

/-! ## Columns -/

namespace Scope

/-- A column is read for the paths that lead to it or into it. -/
lemma resolve?_cases (c : Column) (own : Bool) (p : Path) :
    p.isWithin c.name = false ∧ c.resolve? own p = none ∨
    p.isWithin c.name = true ∧ ∃ r, c.resolve? own p = some r ∧ r ≠ .missing := by
  obtain ⟨f, hf⟩ : ∃ f, c.resolve? own p = resolveIn c.name f c.json p := ⟨_, rfl⟩
  rw [hf]
  rcases resolveIn_cases c.name f c.json p with h | ⟨hw, h | ⟨l, h, -⟩⟩
  · exact .inl h
  · exact .inr ⟨hw, _, h, by rintro ⟨⟩⟩
  · exact .inr ⟨hw, _, h, by rintro ⟨⟩⟩

/-- A row of columns lacks the paths that lead to none of them. -/
lemma resolve_columns_eq_missing_iff (columns : List Column) (own : Bool) :
    ({ columns } : Scope).resolve p own = .missing ↔
      ∀ c ∈ columns, p.isWithin c.name = false := by
  have hresolve : ({ columns } : Scope).resolve p own =
      (columns.reverse.findSome? (·.resolve? own p)).getD .missing :=
    resolve_eq _ p own
  rw [hresolve]
  cases hfind : columns.reverse.findSome? (·.resolve? own p) with
  | none =>
    refine iff_of_true rfl fun c hc => ?_
    have hnone := List.findSome?_eq_none_iff.1 hfind c (List.mem_reverse.2 hc)
    rcases resolve?_cases c own p with ⟨hw, -⟩ | ⟨-, r, hr, -⟩
    · exact hw
    · rw [hnone] at hr
      cases hr
  | some r =>
    obtain ⟨c, hc, hr⟩ := List.exists_of_findSome?_eq_some hfind
    rcases resolve?_cases c own p with ⟨-, hnone⟩ | ⟨hw, r', hr', hne⟩
    · rw [hnone] at hr
      cases hr
    · rw [hr] at hr'
      cases hr'
      refine iff_of_false hne fun h => ?_
      rw [h c (List.mem_reverse.1 hc)] at hw
      cases hw

/-- The row of the columns that are left without some fields. -/
def withoutColumns (σ : Scope) (names : List Path) : Scope :=
  { columns := (σ.entries.filter fun e => !names.any fun n => e.name.isWithin n).map fun e =>
      ⟨e.name, .output e.value, e.json⟩ }

/-- A path is missing afterwards if every entry to which it leads is removed. -/
lemma resolve_withoutColumns_eq_missing_iff (σ : Scope) (names : List Path) (p : Path)
    (own : Bool) :
    (σ.withoutColumns names).resolve p own = .missing ↔
      ∀ e ∈ σ.entries, p.isWithin e.name = true → ∃ n ∈ names, e.name.isWithin n = true := by
  rw [withoutColumns, resolve_columns_eq_missing_iff, List.forall_mem_map]
  refine ⟨fun h e he hw => ?_, fun h e he => ?_⟩
  · by_contra hkept
    have hleft : e ∈ σ.entries.filter fun e => !names.any fun n => e.name.isWithin n := by
      rw [List.mem_filter, Bool.not_eq_true', List.any_eq_false]
      exact ⟨he, fun n hn hwithin => hkept ⟨n, hn, hwithin⟩⟩
    rw [h e hleft] at hw
    cases hw
  · obtain ⟨he, hkept⟩ := List.mem_filter.1 he
    rw [Bool.not_eq_true', List.any_eq_false] at hkept
    rw [← Bool.not_eq_true]
    intro hw
    obtain ⟨n, hn, hwithin⟩ := h e he hw
    exact hkept n hn hwithin

/-- A path that is not removed is read afterwards where the row exported it. -/
lemma readOrigin_withoutColumns (hdoc : σ.isDocument = false)
    (h : ∀ n ∈ names, p.isWithin n = false) :
    (σ.withoutColumns names).readOrigin p = σ.exportOrigin p := by
  -- The entries to which the path leads are all kept.
  have hkept : ∀ e : Entry, (!names.any fun n => e.name.isWithin n) = false →
      e.origin? p = none := by
    intro e he
    rw [Bool.not_eq_false', List.any_eq_true] at he
    obtain ⟨n, hn, hw⟩ := he
    rw [Entry.origin?, if_neg]
    intro hp
    have hpn : p.isWithin n = true :=
      Path.isWithin_iff.2 ((Path.isWithin_iff.1 hw).trans (Path.isWithin_iff.1 hp))
    rw [h n hn] at hpn
    cases hpn
  have hdoc : σ.doc = none := by simpa [isDocument] using hdoc
  rw [withoutColumns, readOrigin_columns, exportOrigin, hdoc, ← List.map_reverse,
    List.findSome?_map, ← findSome?_filter hkept σ.entries.reverse, List.filter_reverse]
  rfl

end Scope

/-! ## Removing fields -/

namespace Draft

/-- Fields are removed from every row of columns. Afterwards a path is missing exactly if every
entry that covered it is removed, so a path that is removed is missing unless an entry above the
removed name is left. A path that is not removed has the same value as before, whatever the values
of the row, exactly if the row read it where it exported it. -/
theorem removed_fields_missing_unless_kept_above (b : Draft) (hcolumns : b.scope.isDocument = false)
    (names : List Path) (stage : String) (env : Env) (e : Emission) :
    ∃ b', ((b.excludeFields names stage).run env).run e = .ok b' e ∧
      (∀ p own, b'.scope.resolve p own = .missing ↔ ∀ x ∈ b.scope.entries,
        p.isWithin x.name = true → ∃ n ∈ names, x.name.isWithin n = true) ∧
      ∀ p : Path, p.IsDotted → (∀ n ∈ names, p.isWithin n = false) →
        ((∀ ρ, (b'.scope.resolve p false).value? ρ = (b.scope.resolve p false).value? ρ) ↔
          b.scope.readOrigin p = b.scope.exportOrigin p) := by
  refine ⟨b.withScope (b.scope.withoutColumns names), ?_,
    b.scope.resolve_withoutColumns_eq_missing_iff names, fun p hp h => ?_⟩
  · unfold excludeFields
    rw [hcolumns]
    rfl
  · have hread := Scope.readOrigin_withoutColumns hcolumns h
    have hexport : b.scope.exportOrigin p ≠ .mixed := hread ▸ Scope.readOrigin_ne_mixed _ p
    simp only [withScope, value?_resolve hp, hread]
    refine ⟨fun hsame => ?_, fun hsame ρ => by rw [hsame]⟩
    exact Origin.eq_of_value?_eq (b.scope.readOrigin_ne_mixed p) hexport fun ρ => (hsame ρ).symm

/-- Orders by customer, with a field computed below a column and one beside it. -/
def customerOrders : Draft where
  query := {}
  scope :=
    { columns := [⟨⟨["customer"]⟩, .of "q_1", true⟩, ⟨⟨["amount"]⟩, .of "q_1", false⟩]
      computed := [⟨⟨["customer", "name"]⟩, Fragment.text "1", false⟩,
        ⟨⟨["total"]⟩, Fragment.text "2", false⟩] }

/-- Without its customers, an order has no names of customers, and the total that it had. -/
theorem customerOrders_without_customer : customerOrders.scope.isDocument = false ∧
    ∀ env e, ∃ b', ((customerOrders.excludeFields [⟨["customer"]⟩] "$unset").run env).run e =
      .ok b' e ∧ b'.scope.resolve ⟨["customer", "name"]⟩ false = .missing ∧
      ∀ ρ, (b'.scope.resolve ⟨["total"]⟩ false).value? ρ =
        (customerOrders.scope.resolve ⟨["total"]⟩ false).value? ρ := by
  refine ⟨rfl, fun env e => ?_⟩
  obtain ⟨b', hrun, hmissing, hrest⟩ := removed_fields_missing_unless_kept_above customerOrders rfl
    [⟨["customer"]⟩] "$unset" env e
  refine ⟨b', hrun, (hmissing _ _).2 (by decide), (hrest _ (by decide) (by decide)).2 rfl⟩

/-- A field below a column that is left is not missing after it is removed, and a field of unwound
documents that is not removed changes its place. -/
theorem removed_field_still_read :
    (∃ b : Draft, b.Reached ∧ b.scope.isDocument = false ∧ ∀ env e, ∃ b',
      ((b.excludeFields [⟨["a", "b"]⟩] "$unset").run env).run e = .ok b' e ∧
        b'.scope.resolve ⟨["a", "b"]⟩ false ≠ .missing) ∧
    ∃ b : Draft, b.Reached ∧ b.scope.isDocument = false ∧ ∀ env e, ∃ b',
      ((b.excludeFields [⟨["a"]⟩] "$unset").run env).run e = .ok b' e ∧
        ∃ ρ, (b'.scope.resolve ⟨["inv", "qty"]⟩ false).value? ρ ≠
          (b.scope.resolve ⟨["inv", "qty"]⟩ false).value? ρ := by
  refine ⟨⟨_, ⟨{}, {}, "orders", [.project [(⟨["a"]⟩, .keep)]], _, rfl⟩, rfl,
    fun env e => ⟨_, rfl, by rintro ⟨⟩⟩⟩,
    _, ⟨{}, {}, "orders", [.project [(⟨["a"]⟩, .keep)],
      .lookup ⟨"inventory", ⟨["inv"]⟩, ⟨["item"]⟩, ⟨["sku"]⟩⟩,
      .unwind ⟨⟨["inv"]⟩, none, false⟩], _, rfl⟩, rfl, fun env e => ⟨_, rfl, ?_⟩⟩
  have hp : Path.IsDotted ⟨["inv", "qty"]⟩ := by decide
  by_contra hnone
  have hsame := Origin.eq_of_value?_eq (Scope.readOrigin_ne_mixed _ _)
    (Scope.readOrigin_ne_mixed _ _) fun ρ => by
      simpa only [value?_resolve hp] using not_exists_not.1 hnone ρ
  -- The row read the documents of the lookup, and exported the element of the unwind.
  change Origin.within (.column "unwind_1" "value") ["qty"] =
    Origin.within (.column "inventory_1" "docs") ["qty"] at hsame
  simp [Fragment.column, Fragment.ofToken] at hsame

end Draft

end PipelineSql
