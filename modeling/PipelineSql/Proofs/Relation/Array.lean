import PipelineSql.Proofs.Relation.Scalar
import PipelineSql.Render.Array

/-!
# Related arrays

The operators on arrays are related to themselves when their operands are. What is computed for an
element stands in a subquery over the rows of elements, so it may read the columns of these rows.
-/

namespace PipelineSql

namespace FragmentLogic

variable {L : FragmentLogic} {Γ : Ctx}

lemma rel_inOrder {label : String} :
    L.Rel (Γ.inside (.rows [elementSource label])) (Render.inOrder label)
      (Render.inOrder label) := by
  exact rel_arrayOf (rel_ownColumn (by decide)) (rel_ownColumn (by decide))

lemma rel_unionOf {fs gs : List Fragment} {label : String}
    (h : List.Forall₂ (L.Rel (Γ.inside .derived)) fs gs) :
    L.Rel Γ (Render.unionOf fs label) (Render.unionOf gs label) := by
  have hrows := rel_derived (rel_paren (rel_joined " UNION ALL " h))
  exact rel_append (rel_append hrows (rel_text _)) (rel_ident _)

/-- A column of tagged rows, inside the subquery over them. -/
lemma rel_taggedColumn {label column name : String} (h : name ∈ ["src", "rn", column]) :
    L.Rel (Γ.inside (.rows [Render.taggedSource label column])) (Fragment.column label name)
      (Fragment.column label name) :=
  rel_ownColumn h

/-- A subquery over one row source that is itself a query. -/
lemma rel_overDerived {s : RowSource} {f f' g g' : Fragment}
    (h : L.Rel (Γ.inside (.rows [s])) f f')
    (h' : L.Rel ((Γ.inside (.rows [s])).inside .derived) g g') :
    L.Rel Γ
      (Fragment.subquery [s] ("SELECT " ++ f ++ " FROM " ++ Fragment.derived g ++ " " ++
        Fragment.ident s.label))
      (Fragment.subquery [s] ("SELECT " ++ f' ++ " FROM " ++ Fragment.derived g' ++ " " ++
        Fragment.ident s.label)) := by
  have hrows := rel_derived h'
  refine rel_subquery ?_ (by mono)
  simp [Bracket.Declared, Bracket.labels, Fragment.ident, Fragment.ofToken]

lemma rel_existsElement {d d' : Dialect} (hd : L.Speaks d d') {a a' : ArraySource} {label : String}
    {f g : Fragment} (h : L.ArrayRel Γ a a')
    (hf : L.Rel (Γ.inside (.rows [elementSource label])) f g) :
    L.Rel Γ (Render.existsElement d a label f) (Render.existsElement d' a' label g) :=
  rel_append (rel_text _) (rel_overElements hd h (rel_text _) (rel_append (rel_text _) hf))

instance (n : Option Int) : Common (Render.directionText n) := by
  unfold Render.directionText
  exact inferInstance

/-- Text is extracted for every release in the same way. -/
lemma elementOrder_eq (d d' : Dialect) (label : String) (order : Expr) :
    Render.elementOrder d label order = Render.elementOrder d' label order := by
  cases order <;> rfl

lemma rel_elementOrder {d : Dialect} {label : String} {order : Expr} {f : Fragment}
    (h : Render.elementOrder d label order = .ok f) :
    L.Rel (Γ.inside (.rows [elementSource label])) f f := by
  unfold Render.elementOrder at h
  split at h
  · cases h
    mono <;> decide
  · cases h
    refine rel_commas (forall₂_self fun f hf => ?_)
    obtain ⟨_, _, rfl⟩ := List.mem_map.1 hf
    have hvalue : L.Rel (Γ.inside (.rows [elementSource label])) (Fragment.column label valueColumn)
        (Fragment.column label valueColumn) := rel_elementColumn (by decide)
    exact rel_append (rel_call (.cons hvalue (.cons (rel_string _) .nil))) (rel_text _)
  · cases h

end FragmentLogic

namespace RenderLogic

open FragmentLogic

variable {L : RenderLogic} {Γ : Ctx}

instance (op : ArrayOp) (input : Option Reading) : (Render.inputOf op input).Ordinary := by
  cases input with
  | none => exact Result.ordinary_fault rfl
  | some r => exact ⟨trivial⟩

/-- The input array, if there is one. -/
lemma run_inputOf {op : ArrayOp} {input : Option Reading} (h : ∀ r ∈ input, L.Reads r)
    {α : Type} {A : α → α → Prop} {row : Option Ctx} {k k' : Reading → Render α}
    (hk : ∀ r, L.Reads r → L.Run row A (k r) (k' r)) :
    L.Run row A (liftM (Render.inputOf op input) >>= k)
      (liftM (Render.inputOf op input) >>= k') := by
  refine run_required (fun r hr => h r ?_) hk
  cases input <;> cases hr
  rfl

/-! ## Positions -/

lemma run_endElement {array : Reading} {step : String} {type : Option JsonType}
    (h : L.Reads array) : L.Keeps (some Γ) (L.Rel Γ) (Render.endElement array step type) := by
  unfold Render.endElement
  refine L.bind (h.source Γ) fun a a' ha => L.bind L.read fun env env' henv => L.pure ?_
  obtain ⟨hf⟩ := ha
  exact rel_jsonValue henv.speaks hf

lemma run_elementAt {array index : Reading} {type : Option JsonType} (ha : L.Reads array)
    (hi : L.Reads index) : L.Keeps (some Γ) (L.Rel Γ) (Render.elementAt array index type) := by
  unfold Render.elementAt
  refine L.bind (ha.source Γ) fun a a' ha => L.bind L.read fun env env' henv => ?_
  split
  · obtain ⟨hf⟩ := ha
    exact L.pure (rel_jsonValue henv.speaks hf)
  · refine run_alias fun label => L.bind (hi.number Γ) fun n n' hn => L.pure ?_
    have hn := L.mono (Γ.le_inside_rows [elementSource label]) hn
    refine rel_overElements henv.speaks ha (rel_elementValue henv.speaks ?_) ?_
    · exact List.mem_append_left _ List.mem_cons_self
    · mono
      decide

lemma run_arraySize {array : Reading} (h : L.Reads array) :
    L.Keeps (some Γ) (L.Rel Γ) (Render.arraySize array) := by
  unfold Render.arraySize
  refine L.bind L.read fun env env' henv => ?_
  have hkey : (array.expr.field? >>= fun f => env.scope.lookup? f.path >>= fun l => l.key) =
      array.expr.field? >>= fun f => env'.scope.lookup? f.path >>= fun l => l.key := by
    cases hf : array.expr.field? with
    | none => rfl
    | some f =>
      rw [Option.bind_eq_bind, Option.bind_some, Option.bind_eq_bind, Option.bind_some,
        (henv.scope Γ rfl).lookup (h.expr.views.field hf)]
  rw [hkey]
  dsimp only
  split
  · next key hkey =>
    obtain ⟨f, hf, hkey⟩ := Option.bind_eq_some_iff.1 hkey
    obtain ⟨l, hl, hlkey⟩ := Option.bind_eq_some_iff.1 hkey
    obtain ⟨hs, hr⟩ := (henv.scope Γ rfl).found (h.expr.views.field hf) hl hlkey
    exact run_lookupSize hs (henv.fieldValue hr none)
  · refine L.bind (h.source Γ) fun a a' ha => L.pure ?_
    obtain ⟨hf⟩ := ha
    exact rel_jsonValue henv.speaks hf

lemma run_sliceBounds {label : String} {skip : Option Reading} {count : Reading}
    (hs : ∀ r ∈ skip, L.Reads r) (hc : L.Reads count) :
    L.Keeps (some Γ) (L.Rel (Γ.inside (.rows [elementSource label])))
      (Render.sliceBounds label skip count) := by
  have le := Γ.le_inside_rows [elementSource label]
  unfold Render.sliceBounds
  split
  · refine L.bind (hc.number Γ) fun c c' hc => L.pure ?_
    have hc := L.mono le hc
    mono
    decide
  · refine L.bind ((hs _ rfl).number Γ) fun s s' hs => L.bind (hc.number Γ) fun c c' hc =>
      L.pure ?_
    have hs := L.mono le hs
    have hc := L.mono le hc
    mono <;> decide

lemma run_slice {array : Reading} {skip : Option Reading} {count : Reading} (ha : L.Reads array)
    (hs : ∀ r ∈ skip, L.Reads r) (hc : L.Reads count) :
    L.Keeps (some Γ) (L.Rel Γ) (Render.slice array skip count) := by
  unfold Render.slice
  refine L.bind (ha.source Γ) fun a a' ha => ?_
  split
  · split
    · obtain ⟨hf⟩ := ha
      exact L.pure (rel_jsonQuery hf)
    · exact L.pure (rel_call .nil)
  · refine run_warn (run_alias fun label => L.bind (run_sliceBounds hs hc) fun f g hfg => ?_)
    refine L.bind L.read fun env env' henv => L.pure ?_
    exact rel_overElements henv.speaks ha rel_inOrder (rel_append (rel_text _) hfg)

/-! ## Several arrays -/

lemma run_taggedRows {column : String} (hc : column ∈ elementNames) {rs : List Reading}
    (h : ∀ r ∈ rs, L.Reads r) (n : Nat) :
    L.Keeps (some Γ) (List.Forall₂ (L.Rel Γ)) (Render.taggedRows column n rs) := by
  induction rs generalizing n with
  | nil => exact L.pure .nil
  | cons r rest ih =>
    unfold Render.taggedRows
    refine L.bind ((h r List.mem_cons_self).source Γ) fun a a' ha => run_alias fun label => ?_
    refine L.bind L.read fun env env' henv => ?_
    refine L.bind (ih (fun r hr => h r (List.mem_cons_of_mem _ hr)) (n + 1)) fun fs gs hfs => ?_
    have hspeaks := henv.speaks
    have ha := ha.mono (Γ.le_inside_rows [elementSource label])
    refine L.pure (.cons (L.group rfl ?_ (by simp [Bracket.selected?]) ?_) hfs)
    · simp [Bracket.Declared, Bracket.labels, elementSource, elementRows, Fragment.ident,
        Fragment.ofToken]
    · mono
      decide

lemma run_concatenatedArrays {rs : List Reading} (h : ∀ r ∈ rs, L.Reads r) :
    L.Keeps (some Γ) (L.Rel Γ) (Render.concatenatedArrays rs) := by
  unfold Render.concatenatedArrays
  refine run_alias fun u => L.bind (run_taggedRows (by decide) h 1) fun fs gs hfs => L.pure ?_
  have hrows := hfs.imp fun _ _ =>
    L.mono (Γ.le_inside_derived [Render.taggedSource u valueColumn])
  refine rel_subquery ?_ ?_
  · simp [Bracket.Declared, Bracket.labels, Render.taggedSource, Render.unionOf, Fragment.ident,
      Fragment.ofToken]
  · refine rel_separated (rel_append (rel_text _) (rel_arrayOf ?_ ?_)) (rel_unionOf hrows)
    · exact rel_taggedColumn (by decide)
    · exact rel_separated (rel_taggedColumn (by decide)) (rel_taggedColumn (by decide))

lemma run_setUnion {rs : List Reading} (h : ∀ r ∈ rs, L.Reads r) :
    L.Keeps (some Γ) (L.Rel Γ) (Render.setUnion rs) := by
  unfold Render.setUnion
  refine run_warn (run_alias fun u => run_alias fun d => ?_)
  refine L.bind (run_taggedRows (by decide) h 1) fun fs gs hfs => L.pure ?_
  have le := Γ.le_inside_derived [⟨d, .columns ["s", "src", "rn"]⟩]
  have hrows := hfs.imp fun _ _ hfg =>
    L.mono (Ctx.le_inside_derived _ [Render.taggedSource u "s"]) (L.mono le hfg)
  refine rel_overDerived (s := ⟨d, .columns ["s", "src", "rn"]⟩) ?_ (rel_subquery ?_ ?_)
  · refine rel_arrayOf (rel_ownColumn (by decide)) ?_
    exact rel_separated (rel_ownColumn (by decide)) (rel_ownColumn (by decide))
  · simp [Bracket.Declared, Bracket.labels, Render.taggedSource, Render.unionOf, Fragment.ident,
      Fragment.ofToken]
  · refine rel_separated (rel_separated (rel_append (rel_text _) (rel_commas ?_))
      (rel_unionOf hrows)) (rel_taggedColumn (by decide))
    refine .cons (rel_taggedColumn (by decide)) (.cons ?_ (.cons ?_ .nil))
    · exact rel_separated (rel_call₁ (rel_taggedColumn (by decide))) (rel_ident _)
    · exact rel_separated (rel_call₁ (rel_taggedColumn (by decide))) (rel_ident _)

/-- The text may belong to a query around the test. -/
lemma run_elementOf {Δ : Ctx} {f g : Fragment} {array : Reading} (le : Γ ≤ Δ) (hf : L.Rel Δ f g)
    (h : L.Reads array) :
    L.Run (some Γ) (L.Rel Δ) (Render.elementOf f array) (Render.elementOf g array) := by
  unfold Render.elementOf
  refine L.bind (h.source Γ) fun a a' ha => run_alias fun label => ?_
  refine L.bind L.read fun env env' henv => L.pure ?_
  have hf := L.mono (Δ.le_inside_rows [elementSource label]) hf
  exact rel_existsElement henv.speaks (ha.mono le)
    (rel_condition (.relation (rel_elementColumn (by decide)) hf))

/-- The tests of a text against several arrays. -/
lemma run_elementTests {Δ : Ctx} {f : Fragment} {others : List Reading} {kept : Bool} (le : Γ ≤ Δ)
    (hf : L.Rel Δ f f) (h : ∀ r ∈ others, L.Reads r) :
    L.Keeps (some Γ) (List.Forall₂ (L.Rel Δ))
      (others.mapM fun r => do
        let test ← Render.elementOf f r
        return (if kept then Condition.test test else .testNot test).fragment) := by
  refine run_mapM_self fun r hr => L.bind (run_elementOf le hf (h r hr)) fun f g hfg => L.pure ?_
  split <;> mono

lemma run_setFilter {op : ArrayOp} {first : Reading} {others : List Reading} {kept : Bool}
    (hf : L.Reads first) (ho : ∀ r ∈ others, L.Reads r) :
    L.Keeps (some Γ) (L.Rel Γ) (Render.setFilter op first others kept) := by
  unfold Render.setFilter
  refine run_warn (L.bind (hf.source Γ) fun a a' ha => run_alias fun label => run_alias fun d => ?_)
  have le := Γ.le_inside_derived [⟨d, .columns ["s"]⟩]
  have le' := Ctx.Le.trans le (Ctx.le_inside_rows _ [elementSource label])
  refine L.bind (run_elementTests le' (rel_elementColumn (by decide)) ho) fun fs gs hfs => ?_
  refine L.bind L.read fun env env' henv => L.pure ?_
  rw [isEmpty_eq_of_forall₂ hfs]
  refine rel_overDerived (s := ⟨d, .columns ["s"]⟩) ?_
    (rel_overElements henv.speaks (ha.mono le) ?_ ?_)
  · mono
    decide
  · mono
    decide
  · split <;> mono

lemma run_subset {left right : Reading} (hl : L.Reads left) (hr : L.Reads right) :
    L.Keeps (some Γ) (L.Cond Γ) (Render.subset left right) := by
  unfold Render.subset
  refine L.bind (hl.source Γ) fun a a' ha => run_alias fun label => ?_
  refine L.bind (run_elementOf (Γ.le_inside_rows [elementSource label])
    (rel_elementColumn (by decide)) hr) fun f g hfg => ?_
  refine L.bind L.read fun env env' henv => L.pure ?_
  exact .testNot (rel_existsElement henv.speaks ha (rel_condition (.testNot hfg)))

lemma run_sameElements {first : Reading} {others : List Reading} (hf : L.Reads first)
    (ho : ∀ r ∈ others, L.Reads r) :
    L.Keeps (some Γ) (L.Cond Γ) (Render.sameElements first others) := by
  unfold Render.sameElements
  refine L.bind (run_mapM_self (A := List.Forall₂ (L.Cond Γ)) fun r hr => ?_) fun cs cs' hcs => ?_
  · refine L.bind (run_subset hf (ho r hr)) fun c c' hc => ?_
    exact L.bind (run_subset (ho r hr) hf) fun d d' hd => L.pure (.cons hc (.cons hd .nil))
  · exact L.pure (.all (List.rel_flatten hcs))

/-! ## Searching -/

lemma run_elementEquals {label : String} {value : Reading} (h : L.Reads value) :
    L.Keeps (some Γ) (L.Rel (Γ.inside (.rows [elementSource label])))
      (Render.elementEquals label value) := by
  have le := Γ.le_inside_rows [elementSource label]
  unfold Render.elementEquals
  refine run_ite (fun _ => ?_) fun _ => ?_
  · refine L.bind (h.number Γ) fun f g hfg => L.pure ?_
    exact rel_condition (.relation (rel_elementColumn (by decide)) (L.mono le hfg))
  · refine L.bind (h.value Γ _) fun f g hfg => L.pure ?_
    exact rel_condition (.relation (rel_elementColumn (by decide)) (L.mono le hfg))

lemma run_containment {array value : Reading} (ha : L.Reads array) (hv : L.Reads value) :
    L.Keeps (some Γ) (L.Cond Γ) (Render.containment array value) := by
  unfold Render.containment
  split
  · exact L.pure (.constant _)
  · exact run_membership hv
  · refine L.bind (ha.source Γ) fun a a' ha => run_alias fun label => ?_
    refine L.bind L.read fun env env' henv => ?_
    exact L.bind (run_elementEquals hv) fun f g hfg =>
      L.pure (.test (rel_existsElement henv.speaks ha hfg))

lemma run_bound {Δ : Ctx} {f g : Fragment} {r : Option Reading} (le : Γ ≤ Δ) (hf : L.Rel Δ f g)
    (h : ∀ x ∈ r, L.Reads x) :
    L.Run (some Γ) (L.Rel Δ) (Render.bound f r) (Render.bound g r) := by
  cases r with
  | none => exact L.pure rel_nil
  | some x =>
    exact L.bind ((h x rfl).number Γ) fun n n' hn => L.pure (rel_append hf (L.mono le hn))

lemma run_elementPosition {array value : Reading} {start stop : Option Reading}
    (ha : L.Reads array) (hv : L.Reads value) (hstart : ∀ r ∈ start, L.Reads r)
    (hstop : ∀ r ∈ stop, L.Reads r) :
    L.Keeps (some Γ) (L.Rel Γ) (Render.elementPosition array value start stop) := by
  unfold Render.elementPosition
  refine L.bind (ha.source Γ) fun a a' ha => run_alias fun label => ?_
  have le := Γ.le_inside_rows [elementSource label]
  have hrn : L.Rel (Γ.inside (.rows [elementSource label])) (Fragment.column label "rn")
      (Fragment.column label "rn") := rel_elementColumn (by decide)
  have htest (op : String) [Common op] : L.Rel (Γ.inside (.rows [elementSource label]))
      (" AND " ++ Fragment.column label "rn" ++ op)
      (" AND " ++ Fragment.column label "rn" ++ op) :=
    rel_append (rel_append (rel_text _) hrn) (rel_text _)
  refine L.bind (run_elementEquals hv) fun t t' ht => ?_
  refine L.bind (run_bound le (htest _) hstart) fun f f' hf => ?_
  refine L.bind (run_bound le (htest _) hstop) fun g g' hg => ?_
  refine L.bind L.read fun env env' henv => L.pure ?_
  refine rel_overElements henv.speaks ha ?_ ?_
  · exact rel_call₂ (rel_append (rel_call₁ hrn) (rel_text _)) (rel_text _)
  · exact rel_append (rel_append (rel_append (rel_text _) ht) hf) hg

lemma run_elementTruth {any : Bool} {array : Reading} (h : L.Reads array) :
    L.Keeps (some Γ) (L.Cond Γ) (Render.elementTruth any array) := by
  unfold Render.elementTruth
  refine L.bind (h.source Γ) fun a a' ha => run_alias fun label => ?_
  refine L.bind L.read fun env env' henv => ?_
  have hs : L.Rel (Γ.inside (.rows [elementSource label])) (Fragment.column label "s")
      (Fragment.column label "s") := rel_elementColumn (by decide)
  have hfalse := forall₂_falseTexts (L := L.toFragmentLogic)
    (Γ := Γ.inside (.rows [elementSource label]))
  refine run_ite (fun _ => L.pure (.test (rel_existsElement henv.speaks ha ?_)))
    fun _ => L.pure (.testNot (rel_existsElement henv.speaks ha ?_))
  · refine rel_separated (rel_condition (.isNotNull hs)) ?_
    exact rel_condition (.among (rel_call₁ hs) hfalse)
  · refine rel_separated (rel_condition (.isNull hs)) ?_
    exact rel_condition (.among (rel_call₁ hs) hfalse)

/-! ## Rebuilding -/

lemma run_reversed {array : Reading} (h : L.Reads array) :
    L.Keeps (some Γ) (L.Rel Γ) (Render.reversed array) := by
  unfold Render.reversed
  refine L.bind (h.source Γ) fun a a' ha => run_alias fun label => ?_
  refine L.bind L.read fun env env' henv => L.pure ?_
  refine rel_overElements henv.speaks ha ?_ rel_nil
  mono <;> decide

instance (d : Dialect) (label : String) (order : Expr) :
    (Render.elementOrder d label order).Ordinary := by
  unfold Render.elementOrder
  split <;> first | infer_instance | exact Result.ordinary_fault rfl

lemma run_sortedArray {array : Reading} {order : Expr} (h : L.Reads array) :
    L.Keeps (some Γ) (L.Rel Γ) (Render.sortedArray array order) := by
  unfold Render.sortedArray
  refine L.bind (h.source Γ) fun a a' ha => run_alias fun label => ?_
  refine L.bind L.read fun env env' henv => ?_
  dsimp only
  rw [elementOrder_eq env'.dialect env.dialect]
  refine L.bind run_result ?_
  rintro terms _ ⟨rfl, hterms⟩
  have hterms := rel_elementOrder (L := L.toFragmentLogic) (Γ := Γ) hterms
  refine L.pure (rel_overElements henv.speaks ha ?_ rel_nil)
  mono
  decide

instance (limit : Option Reading) : (Render.filterLimit limit).Ordinary := by
  unfold Render.filterLimit
  split
  · infer_instance
  · split <;> infer_instance

lemma run_filtered {array test : Reading} {var : String} {limit : Option Reading}
    (ha : L.Reads array) (ht : L.Reads test) :
    L.Keeps (some Γ) (L.Rel Γ) (Render.filtered array var test limit) := by
  unfold Render.filtered
  refine L.bind (ha.source Γ) fun a a' ha => run_alias fun label => ?_
  refine L.bind (L.withElement _ (ht.condition _)) fun c c' hc =>
    L.bind run_result ?_
  rintro limit _ ⟨rfl, _⟩
  refine L.bind L.read fun env env' henv => ?_
  cases limit with
  | none =>
    refine L.pure (rel_overElements henv.speaks ha rel_inOrder ?_)
    exact rel_append (rel_text _) (rel_condition hc)
  | some n =>
    refine run_alias fun f => L.pure ?_
    have le := Γ.le_inside_derived [⟨f, .columns ["rn", valueColumn]⟩]
    have hc := hc.mono (le.inside (.rows [elementSource label]))
    refine rel_overDerived (s := ⟨f, .columns ["rn", valueColumn]⟩) ?_
      (rel_overElements henv.speaks (ha.mono le) ?_ ?_)
    · exact rel_arrayOf (rel_ownColumn (by decide)) (rel_ownColumn (by decide))
    · exact rel_separated (rel_elementColumn (by decide)) (rel_elementColumn (by decide))
    · have hwhere := rel_append (rel_text " WHERE ") (rel_condition hc)
      refine rel_separated (rel_separated hwhere ?_) (rel_rowWindow _)
      exact rel_elementColumn (by decide)

lemma run_mapped {array body : Reading} {var : String} (ha : L.Reads array) (hb : L.Reads body) :
    L.Keeps (some Γ) (L.Rel Γ) (Render.mapped array var body) := by
  unfold Render.mapped
  refine L.bind (ha.source Γ) fun a a' ha => run_alias fun label => ?_
  refine L.bind (L.withElement _ (hb.json _)) ?_
  rintro ⟨f, json⟩ ⟨g, _⟩ ⟨hfg, rfl⟩
  refine L.bind L.read fun env env' henv => L.pure ?_
  refine rel_overElements henv.speaks ha (rel_arrayOf hfg (rel_elementColumn ?_)) rel_nil
  decide

/-- The operands of a fold are operands of its body. -/
lemma foldParts_subset {body : Reading} {kind : Render.FoldKind} {parts : List Reading}
    (h : Render.foldParts body = .ok (kind, parts)) : parts ⊆ body.operands := by
  have last : ∀ k ps, (do
      if ps.isEmpty || ps.any fun r => Render.readsFoldValue r.expr then
        unsupported .reduceValue
      return (k, ps) : Result (Render.FoldKind × List Reading)) = .ok (kind, parts) →
      ps = parts := by
    intro k ps h
    dsimp only at h
    split at h
    · cases h
    · cases h
      rfl
  unfold Render.foldParts at h
  dsimp only at h
  split at h
  · split at h
    · rw [← last _ _ h]
      exact List.filter_subset_self _
    · cases h
  · next hoperands =>
    split at h
    · rw [← last _ _ h, hoperands]
      exact List.subset_cons_self _ _
    · cases h
  · cases h

instance (body : Reading) : (Render.foldParts body).Ordinary := by
  unfold Render.foldParts
  dsimp only
  split <;> [split; split; skip] <;> infer_instance

lemma run_reduced {array initial body : Reading} (ha : L.Reads array) (hi : L.Reads initial)
    (hb : L.Reads body) : L.Keeps (some Γ) (L.Rel Γ) (Render.reduced array initial body) := by
  unfold Render.reduced
  refine L.bind (ha.source Γ) fun a a' ha => run_alias fun label =>
    L.bind run_result ?_
  rintro ⟨kind, parts⟩ _ ⟨rfl, hparts⟩
  have le := Γ.le_inside_rows [elementSource label]
  have hsteps (type : Option JsonType) [L.Extracts type] := L.withElement "this"
    (run_mapM_self fun r hr =>
      hb.operands r (foldParts_subset hparts hr) (Γ.inside (.rows [elementSource label])) type)
  refine L.bind L.read fun env env' henv => ?_
  cases kind with
  | sum =>
    refine L.bind (hsteps _) fun fs gs hfs => L.bind (hi.number Γ) fun f g hfg => L.pure ?_
    have hfg := L.mono le hfg
    refine rel_overElements henv.speaks ha (rel_separated hfg ?_) rel_nil
    exact rel_call₂ (rel_call₁ (rel_joined _ hfs)) (rel_text _)
  | concat =>
    refine L.bind (hsteps _) fun fs gs hfs => L.bind (hi.scalar Γ) fun f g hfg => L.pure ?_
    have hfg := L.mono le hfg
    refine rel_overElements henv.speaks ha (rel_separated (rel_separated hfg ?_) ?_) rel_nil
    · exact rel_call₂ (rel_joined _ hfs) (rel_string _)
    · exact rel_paren (rel_append (rel_text _) (rel_elementColumn (by decide)))

lemma run_arrayValue {op : ArrayOp} {input index : Option Reading} {rs : List Reading}
    {var : Option String} {type : Option JsonType} (hop : op.isCondition = false)
    (hin : ∀ r ∈ input, L.Reads r) (hix : ∀ r ∈ index, L.Reads r) (h : ∀ r ∈ rs, L.Reads r)
    (hn : op.positions ≤ rs.length) :
    L.Keeps (some Γ) (L.Rel Γ) (Render.arrayValue op input index rs var type) := by
  unfold Render.arrayValue
  split <;> try simp only [List.forall_mem_cons] at h
  · split
    · exact run_fault (L.fails rfl)
    · exact run_inputOf hin fun r hr => run_elementAt hr (hix _ rfl)
  · exact run_inputOf hin fun r hr => run_endElement hr
  · exact run_inputOf hin fun r hr => run_endElement hr
  · exact run_inputOf hin fun r hr => run_arraySize hr
  · refine run_inputOf hin fun r hr => ?_
    split <;> try simp only [List.forall_mem_cons] at h
    · exact run_fault (L.fails rfl)
    · exact run_slice hr (by simp) (hix _ rfl)
    · exact run_slice hr hix h.1
  · exact run_concatenatedArrays h
  · exact run_setUnion h
  · exact run_setFilter h.1 h.2
  · exact run_setFilter h.1 h.2
  · exact run_inputOf hin fun r hr => run_elementPosition hr h.1
      (fun r hr => h.2 r (List.mem_of_getElem? hr)) (fun r hr => h.2 r (List.mem_of_getElem? hr))
  · exact run_inputOf hin fun r hr => run_reversed hr
  · exact run_inputOf hin fun r hr => run_sortedArray hr
  · exact run_inputOf hin fun r hr => run_filtered hr h.1
  · exact run_inputOf hin fun r hr => run_mapped hr h.1
  · exact run_inputOf hin fun r hr => run_reduced hr h.1 h.2.1
  · -- an operator that is left is a condition, or has a position without an argument
    exfalso
    clear hin hix h
    rcases rs with _ | ⟨_, _ | _⟩ <;> cases op <;> grind [ArrayOp.positions, ArrayOp.isCondition]

lemma run_arrayCondition {op : ArrayOp} {input : Option Reading} {rs : List Reading}
    (hop : op.isCondition = true) (hin : ∀ r ∈ input, L.Reads r) (h : ∀ r ∈ rs, L.Reads r)
    (hn : op.positions ≤ rs.length) :
    L.Keeps (some Γ) (L.Cond Γ) (Render.arrayCondition op input rs) := by
  unfold Render.arrayCondition
  split <;> try simp only [List.forall_mem_cons] at h
  · cases hn
  · exact run_inputOf hin fun r hr => run_containment hr h.1
  · refine run_inputOf hin fun r hr => L.bind (hr.source Γ) fun a a' ha => ?_
    refine L.bind L.read fun env env' henv => L.pure ?_
    obtain ⟨hf⟩ := ha
    exact .relation (rel_jsonValue henv.speaks hf) (rel_string _)
  · exact run_subset h.1 h.2.1
  · exact run_sameElements h.1 h.2
  · exact run_inputOf hin fun r hr => run_elementTruth hr
  · exact run_inputOf hin fun r hr => run_elementTruth hr
  · exfalso
    clear hin h
    rcases rs with _ | ⟨_, _ | _⟩ <;> cases op <;> grind [ArrayOp.positions, ArrayOp.isCondition]

end RenderLogic

end PipelineSql
