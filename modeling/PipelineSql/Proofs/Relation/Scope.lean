import PipelineSql.Proofs.Relation.Fragment
import PipelineSql.Scope.Row

/-!
# Relations on scopes

Two scopes are related when they bind the same names in the same order to related fragments, and
read only columns that are in sight. Related scopes resolve every path to related places, and yield
related entries, documents and select lists.
-/

namespace PipelineSql

namespace FragmentLogic

variable (L : FragmentLogic) (Γ : Ctx)

/-! ## Bindings -/

/-- Documents from the same column in sight, or with related texts. -/
inductive DocRel : DocSource → DocSource → Prop where
  | column {source name} : Γ.Sees source name → DocRel (.column source name) (.column source name)
  | computed {f g} : L.Rel Γ f g → DocRel (.computed f) (.computed g)

/-- Columns of one name. -/
inductive ColumnRel : Column → Column → Prop where
  | of {name source json} :
    Γ.Sees source (Path.toString name) → ColumnRel ⟨name, .of source, json⟩ ⟨name, .of source, json⟩
  | output {name f g json} :
    L.Rel Γ f g → ColumnRel ⟨name, .output f, json⟩ ⟨name, .output g, json⟩

/-- Computed fields of one name. -/
inductive ComputedRel : Computed → Computed → Prop where
  | mk {name f g json} : L.Rel Γ f g → ComputedRel ⟨name, f, json⟩ ⟨name, g, json⟩

/-- A lookup in a stored table whose documents are in sight. -/
inductive FoundRel : Found → Found → Prop where
  | mk {l} : Γ.Sees (Found.source l) docsColumn → (∀ key ∈ l.key, L.Stored key.source) →
    FoundRel l l

/-- An unwound array whose elements and positions are in sight. -/
inductive UnwoundRel : Unwound → Unwound → Prop where
  | mk {u} :
    Γ.Sees (Unwound.source u) valueColumn → Γ.Sees (Unwound.source u) indexColumn → UnwoundRel u u

/-- Items of a select list under one name. -/
inductive ItemRel : SelectItem → SelectItem → Prop where
  | mk {f g label} : L.Rel Γ f g → ItemRel ⟨f, label⟩ ⟨g, label⟩

/-- Entries of one name. An entry that is passed through is the column of that name. -/
inductive EntryRel : Entry → Entry → Prop where
  | selected {name f g json} : L.Rel Γ f g → EntryRel ⟨name, f, json, false⟩ ⟨name, g, json, false⟩
  | passed {name source json} :
    Γ.Sees source (Path.toString name) →
    EntryRel ⟨name, Fragment.column source (Path.toString name), json, true⟩
      ⟨name, Fragment.column source (Path.toString name), json, true⟩

/-- Scopes with related bindings. -/
structure ScopeRel (s s' : Scope) : Prop where
  doc : Option.Rel (L.DocRel Γ) s.doc s'.doc
  columns : List.Forall₂ (L.ColumnRel Γ) s.columns s'.columns
  computed : List.Forall₂ (L.ComputedRel Γ) s.computed s'.computed
  lookups : List.Forall₂ (L.FoundRel Γ) s.lookups s'.lookups
  unwinds : List.Forall₂ (UnwoundRel Γ) s.unwinds s'.unwinds
  extras : List.Forall₂ (L.ItemRel Γ) s.extras s'.extras

/-- Places with the same steps in related documents. -/
inductive LocationRel : Location → Location → Prop where
  | mk {f g steps dotted each} :
    L.Rel Γ f g → LocationRel ⟨f, steps, dotted, each⟩ ⟨g, steps, dotted, each⟩

/-- Related answers to the question what a path stands for. -/
inductive ResolvedRel : Resolved → Resolved → Prop where
  | value {f g json} : L.Rel Γ f g → ResolvedRel (.value f json) (.value g json)
  | place {l l'} : L.LocationRel Γ l l' → ResolvedRel (.place l) (.place l')
  | missing : ResolvedRel .missing .missing

variable {L Γ}

/-! ## More in sight -/

section Mono

variable {Δ : Ctx} (le : Γ ≤ Δ)

include le

lemma DocRel.mono {d d' : DocSource} (h : L.DocRel Γ d d') : L.DocRel Δ d d' := by
  cases h with
  | column hs => exact .column (hs.mono le)
  | computed hf => exact .computed (L.mono le hf)

lemma ColumnRel.mono {c c' : Column} (h : L.ColumnRel Γ c c') : L.ColumnRel Δ c c' := by
  cases h with
  | of hs => exact .of (hs.mono le)
  | output hf => exact .output (L.mono le hf)

lemma ComputedRel.mono {c c' : Computed} (h : L.ComputedRel Γ c c') : L.ComputedRel Δ c c' := by
  cases h with
  | mk hf => exact .mk (L.mono le hf)

lemma FoundRel.mono {l l' : Found} (h : L.FoundRel Γ l l') : L.FoundRel Δ l l' := by
  cases h with
  | mk hs hkey => exact .mk (hs.mono le) hkey

lemma UnwoundRel.mono {u u' : Unwound} (h : UnwoundRel Γ u u') : UnwoundRel Δ u u' := by
  cases h with
  | mk hv hi => exact .mk (hv.mono le) (hi.mono le)

lemma ItemRel.mono {i i' : SelectItem} (h : L.ItemRel Γ i i') : L.ItemRel Δ i i' := by
  cases h with
  | mk hf => exact .mk (L.mono le hf)

lemma EntryRel.mono {e e' : Entry} (h : L.EntryRel Γ e e') : L.EntryRel Δ e e' := by
  cases h with
  | selected hf => exact .selected (L.mono le hf)
  | passed hs => exact .passed (hs.mono le)

lemma ResolvedRel.mono {r r' : Resolved} (h : L.ResolvedRel Γ r r') : L.ResolvedRel Δ r r' := by
  cases h with
  | value hf => exact .value (L.mono le hf)
  | place hl =>
    obtain ⟨hf⟩ := hl
    exact .place ⟨L.mono le hf⟩
  | missing => exact .missing

/-- Scopes stay related when more is in sight. -/
lemma ScopeRel.mono {s s' : Scope} (h : L.ScopeRel Γ s s') : L.ScopeRel Δ s s' where
  doc := by
    have hd := h.doc
    generalize s.doc = o, s'.doc = o' at hd
    cases hd with
    | none => exact .none
    | some hd => exact .some (hd.mono le)
  columns := h.columns.imp fun _ _ hc => hc.mono le
  computed := h.computed.imp fun _ _ hc => hc.mono le
  lookups := h.lookups.imp fun _ _ hl => hl.mono le
  unwinds := h.unwinds.imp fun _ _ hu => hu.mono le
  extras := h.extras.imp fun _ _ hi => hi.mono le

end Mono

/-! ## Resolution -/

/-- The first answer among related bindings. -/
lemma findSome_rel {α β : Type} {R : α → α → Prop} {S : β → β → Prop} {xs ys : List α}
    {f g : α → Option β} (h : List.Forall₂ R xs ys)
    (hfg : ∀ x y, R x y → Option.Rel S (f x) (g y)) :
    Option.Rel S (xs.findSome? f) (ys.findSome? g) := by
  induction h with
  | nil => exact .none
  | @cons x y xs ys hxy _ ih =>
    have hx := hfg x y hxy
    rw [List.findSome?_cons, List.findSome?_cons]
    generalize f x = o, g y = o' at hx
    cases hx with
    | none => exact ih
    | some hs => exact .some hs

/-- The first of two answers. -/
lemma orElse_rel {β : Type} {S : β → β → Prop} {o o' p p' : Option β} (h : Option.Rel S o o')
    (h' : Option.Rel S p p') : Option.Rel S (o <|> p) (o' <|> p') := by
  cases h with
  | none => exact h'
  | some hs => exact .some hs

lemma resolveIn_rel {name path : Path} {f g : Fragment} {json : Bool} (h : L.Rel Γ f g) :
    Option.Rel (L.ResolvedRel Γ) (resolveIn name f json path) (resolveIn name g json path) := by
  unfold resolveIn
  split
  · exact .some (.value h)
  · cases path.below? name with
    | none => exact .none
    | some rest => exact .some (.place (.mk h))

lemma ComputedRel.resolve {c c' : Computed} (h : L.ComputedRel Γ c c') (path : Path) :
    Option.Rel (L.ResolvedRel Γ) (c.resolve? path) (c'.resolve? path) := by
  cases h with
  | mk hf => exact resolveIn_rel hf

lemma FoundRel.resolve {l l' : Found} (h : L.FoundRel Γ l l') (path : Path) :
    Option.Rel (L.ResolvedRel Γ) (l.resolve? path) (l'.resolve? path) := by
  obtain ⟨hs⟩ := h
  unfold Found.resolve?
  dsimp only
  split
  · exact .some (.value (rel_column hs))
  · cases path.below? l.asField with
    | none => exact .none
    | some rest => exact .some (.place (.mk (rel_column hs)))

lemma rel_positionOf {source : String} (h : Γ.Sees source indexColumn) :
    L.Rel Γ (positionOf source) (positionOf source) :=
  rel_append (rel_column h) (rel_text _)

lemma UnwoundRel.resolve {u u' : Unwound} (h : UnwoundRel Γ u u') (path : Path) :
    Option.Rel (L.ResolvedRel Γ) (u.resolve? path) (u'.resolve? path) := by
  obtain ⟨hv, hi⟩ := h
  unfold Unwound.resolve?
  dsimp only
  split
  · exact .some (.value (rel_positionOf hi))
  · split
    · exact .some (.place (.mk (rel_column hv)))
    · cases path.below? u.path with
      | none => exact .none
      | some rest => exact .some (.place (.mk (rel_column hv)))

lemma ColumnRel.resolve {c c' : Column} (h : L.ColumnRel Γ c c') (orderBy : Bool) (path : Path) :
    Option.Rel (L.ResolvedRel Γ) (c.resolve? orderBy path) (c'.resolve? orderBy path) := by
  cases h with
  | of hs => exact resolveIn_rel (rel_column hs)
  | output hf =>
    unfold Column.resolve?
    dsimp only
    refine resolveIn_rel ?_
    split
    · exact rel_ident _
    · exact hf

lemma DocRel.fragment {d d' : DocSource} (h : L.DocRel Γ d d') :
    L.Rel Γ d.fragment d'.fragment := by
  cases h with
  | column hs => exact rel_column hs
  | computed hf => exact hf

lemma DocRel.resolve {d d' : DocSource} (h : L.DocRel Γ d d') (path : Path) :
    L.ResolvedRel Γ (d.resolve path) (d'.resolve path) := by
  cases h with
  | column hs => exact .place (.mk (rel_column hs))
  | computed hf => exact .place (.mk hf)

/-- The answer of a binding, or else of the document. -/
lemma answer_rel (path : Path) : ∀ {o o' : Option Resolved} {d d' : Option DocSource},
    Option.Rel (L.ResolvedRel Γ) o o' → Option.Rel (L.DocRel Γ) d d' →
    L.ResolvedRel Γ
      (match o, d with
        | some r, _ => r
        | none, some doc => doc.resolve path
        | none, none => .missing)
      (match o', d' with
        | some r, _ => r
        | none, some doc => doc.resolve path
        | none, none => .missing)
  | _, _, _, _, .some hr, _ => hr
  | _, _, _, _, .none, .some hd => hd.resolve path
  | _, _, _, _, .none, .none => .missing

/-- Related scopes resolve a path to related places. -/
lemma ScopeRel.resolve {s s' : Scope} (h : L.ScopeRel Γ s s') (path : Path) (orderBy : Bool) :
    L.ResolvedRel Γ (s.resolve path orderBy) (s'.resolve path orderBy) := by
  have hc := findSome_rel (List.rel_reverse h.computed) fun _ _ hc => hc.resolve path
  have hl := findSome_rel (List.rel_reverse h.lookups) fun _ _ hl => hl.resolve path
  have hu := findSome_rel (List.rel_reverse h.unwinds) fun _ _ hu => hu.resolve (L := L) path
  have hd := findSome_rel (List.rel_reverse h.columns) fun _ _ hc => hc.resolve orderBy path
  have bound := orElse_rel hc (orElse_rel hl (orElse_rel hu hd))
  exact answer_rel path bound h.doc

/-- Related scopes have found the same. -/
lemma ScopeRel.lookup_eq {s s' : Scope} (h : L.ScopeRel Γ s s') (name : Path) :
    s.lookup? name = s'.lookup? name := by
  have hl : s.lookups = s'.lookups := by
    rw [← List.forall₂_eq_eq_eq]
    refine h.lookups.imp ?_
    rintro _ _ ⟨_⟩
    rfl
  unfold Scope.lookup?
  rw [hl]

/-- What has been found was looked up in a stored table. -/
lemma ScopeRel.stored {s s' : Scope} (h : L.ScopeRel Γ s s') {name : Path} {l : Found}
    {key : ForeignKey} (hl : s'.lookup? name = some l) (hkey : l.key = some key) :
    L.Stored key.source := by
  have hstored : ∀ l ∈ s'.lookups, ∀ key ∈ l.key, L.Stored key.source := by
    have hl := h.lookups
    generalize s.lookups = ls, s'.lookups = ls' at hl
    induction hl with
    | nil => exact List.forall_mem_nil _
    | cons hl _ ih =>
      obtain ⟨_, hkey⟩ := hl
      exact List.forall_mem_cons.2 ⟨hkey, ih⟩
  exact hstored l (List.mem_reverse.1 (List.mem_of_find?_eq_some hl)) key hkey

/-! ## Entries -/

lemma entryOfColumn_rel {c c' : Column} (h : L.ColumnRel Γ c c') :
    L.EntryRel Γ (Entry.ofColumn c) (Entry.ofColumn c') := by
  cases h with
  | of hs => exact .passed hs
  | output hf => exact .selected hf

lemma entryOfComputed_rel {c c' : Computed} (h : L.ComputedRel Γ c c') :
    L.EntryRel Γ (Entry.ofComputed c) (Entry.ofComputed c') := by
  cases h with
  | mk hf => exact .selected hf

lemma entryOfFound_rel {l l' : Found} (h : L.FoundRel Γ l l') :
    L.EntryRel Γ (Entry.ofFound l) (Entry.ofFound l') := by
  cases h with
  | mk hs _ => exact .selected (rel_column hs)

lemma entriesOfUnwound_rel {u u' : Unwound} (h : UnwoundRel Γ u u') :
    List.Forall₂ (L.EntryRel Γ) (Entry.ofUnwound u) (Entry.ofUnwound u') := by
  obtain ⟨hv, hi⟩ := h
  unfold Entry.ofUnwound
  dsimp only
  split
  · exact .cons (.selected (rel_column hv)) .nil
  · exact .cons (.selected (rel_column hv)) (.cons (.selected (rel_positionOf hi)) .nil)

lemma EntryRel.name_eq {e e' : Entry} (h : L.EntryRel Γ e e') : e.name = e'.name := by
  cases h <;> rfl

lemma EntryRel.json_eq {e e' : Entry} (h : L.EntryRel Γ e e') : e.json = e'.json := by
  cases h <;> rfl

lemma EntryRel.value {e e' : Entry} (h : L.EntryRel Γ e e') : L.Rel Γ e.value e'.value := by
  cases h with
  | selected hf => exact hf
  | passed hs => exact rel_column hs

lemma put_rel {es es' : List Entry} {e e' : Entry} (hs : List.Forall₂ (L.EntryRel Γ) es es')
    (h : L.EntryRel Γ e e') : List.Forall₂ (L.EntryRel Γ) (Entry.put es e) (Entry.put es' e') := by
  refine List.rel_append (List.rel_filter (fun x y hxy => ?_) hs) (.cons h .nil)
  simp only [hxy.name_eq, h.name_eq]

lemma distinct_rel {es es' : List Entry} (h : List.Forall₂ (L.EntryRel Γ) es es') :
    List.Forall₂ (L.EntryRel Γ) (Entry.distinct es) (Entry.distinct es') := by
  have key : ∀ acc acc', List.Forall₂ (L.EntryRel Γ) acc acc' →
      List.Forall₂ (L.EntryRel Γ) (es.foldl Entry.put acc) (es'.foldl Entry.put acc') := by
    induction h with
    | nil => exact fun _ _ hacc => hacc
    | cons he _ ih => exact fun _ _ hacc => ih _ _ (put_rel hacc he)
  exact key [] [] .nil

lemma ScopeRel.pending {s s' : Scope} (h : L.ScopeRel Γ s s') :
    List.Forall₂ (L.EntryRel Γ) s.pending s'.pending := by
  refine List.rel_append (List.rel_append ?_ ?_) ?_
  · exact List.rel_map (fun _ _ hc => entryOfComputed_rel hc) h.computed
  · exact List.rel_map (fun _ _ hl => entryOfFound_rel hl) h.lookups
  · exact List.rel_flatMap h.unwinds fun _ _ hu => entriesOfUnwound_rel hu

lemma ScopeRel.entries {s s' : Scope} (h : L.ScopeRel Γ s s') :
    List.Forall₂ (L.EntryRel Γ) s.entries s'.entries :=
  distinct_rel (List.rel_append
    (List.rel_map (fun _ _ hc => entryOfColumn_rel hc) h.columns) h.pending)

/-! ## Objects -/

variable (L Γ) in
mutual

/-- Members with related values at the same places. -/
inductive MemberRel : Member → Member → Prop where
  | value {f g json} : L.Rel Γ f g → MemberRel (.value f json) (.value g json)
  | object {ms ms'} : MembersRel ms ms' → MemberRel (.object ms) (.object ms')

/-- Named members with the same keys. -/
inductive MembersRel : List (String × Member) → List (String × Member) → Prop where
  | nil : MembersRel [] []
  | cons {key m m' ms ms'} :
    MemberRel m m' → MembersRel ms ms' → MembersRel ((key, m) :: ms) ((key, m') :: ms')

end

lemma alter_rel {ms ms' : List (String × Member)} {key : String} {f g : Option Member → Member}
    (hnone : L.MemberRel Γ (f none) (g none))
    (hsome : ∀ m m', L.MemberRel Γ m m' → L.MemberRel Γ (f (some m)) (g (some m')))
    (h : L.MembersRel Γ ms ms') :
    L.MembersRel Γ (Member.alter key f ms) (Member.alter key g ms') := by
  induction ms generalizing ms' with
  | nil =>
    obtain ⟨⟩ := h
    exact .cons hnone .nil
  | cons km ms ih =>
    obtain _ | ⟨hm, hms⟩ := h
    unfold Member.alter
    split
    · exact .cons (hsome _ _ hm) hms
    · exact .cons hm (ih hms)

lemma putMember_rel {f g : Fragment} {json : Bool} (hfg : L.Rel Γ f g) (path : List String) :
    ∀ {ms ms' : List (String × Member)}, L.MembersRel Γ ms ms' →
      L.MembersRel Γ (Member.put f json path ms) (Member.put g json path ms') := by
  induction path with
  | nil => exact fun h => h
  | cons key rest ih =>
    intro ms ms' h
    cases rest with
    | nil => exact alter_rel (.value hfg) (fun _ _ _ => .value hfg) h
    | cons next rest =>
      refine alter_rel (.object (ih .nil)) (fun m m' hm => ?_) h
      cases hm with
      | value hv => exact .value hv
      | object hms => exact .object (ih hms)

mutual

lemma MemberRel.fragment : ∀ {m m' : Member}, L.MemberRel Γ m m' → L.Rel Γ m.fragment m'.fragment
  | _, _, .value h => by
    simp only [Member.fragment]
    mono
  | _, _, .object h => by
    simp only [Member.fragment]
    exact rel_call h.fragments

lemma MembersRel.fragments : ∀ {ms ms' : List (String × Member)}, L.MembersRel Γ ms ms' →
    List.Forall₂ (L.Rel Γ) (Member.fragments ms) (Member.fragments ms')
  | _, _, .nil => by
    simp only [Member.fragments]
    exact .nil
  | _, _, .cons hm hms => by
    simp only [Member.fragments]
    exact .cons (rel_append (rel_append (rel_string _) (rel_text _)) hm.fragment) hms.fragments

end

/-- Related entries make related objects. -/
@[mono]
lemma rel_object {es es' : List Entry} (h : List.Forall₂ (L.EntryRel Γ) es es') :
    L.Rel Γ (Entry.object es) (Entry.object es') := by
  have key : ∀ ms ms', L.MembersRel Γ ms ms' →
      L.MembersRel Γ
        (es.foldl (fun ms e => Member.put e.value e.json e.name.segments ms) ms)
        (es'.foldl (fun ms e => Member.put e.value e.json e.name.segments ms) ms') := by
    induction h with
    | nil => exact fun _ _ hms => hms
    | cons he _ ih =>
      intro ms ms' hms
      refine ih _ _ ?_
      dsimp only
      rw [he.name_eq, he.json_eq]
      exact putMember_rel he.value _ hms
  exact (MemberRel.object (key [] [] .nil)).fragment

/-! ## Documents and select lists -/

lemma assignment_rel {e e' : Entry} (h : L.EntryRel Γ e e') :
    L.Rel Γ (Scope.assignment e) (Scope.assignment e') := by
  have hv := h.value
  unfold Scope.assignment
  rw [h.name_eq, h.json_eq]
  mono

lemma rel_merged {d d' : Dialect} (hd : L.Speaks d d') {f g : Fragment} {es es' : List Entry}
    (h : L.Rel Γ f g) (hs : List.Forall₂ (L.EntryRel Γ) es es') :
    L.Rel Γ (Scope.merged d f es) (Scope.merged d' g es') := by
  cases hs with
  | nil => exact h
  | cons he hs =>
    have hs := List.Forall₂.cons he hs
    simp only [Scope.merged, List.isEmpty_cons, Bool.false_eq_true, if_false,
      (L.features hd).jsonTransform.symm]
    split
    · next htransform =>
      refine L.append (rel_said hd (.jsonTransform htransform)) (rel_paren (rel_commas ?_))
      exact .cons h (List.rel_map (fun _ _ he => assignment_rel he) hs)
    · mono

/-- Related scopes stand for related documents. -/
lemma ScopeRel.documentValue {s s' : Scope} (h : L.ScopeRel Γ s s') {d d' : Dialect}
    (hs : L.Speaks d d') : L.Rel Γ (s.documentValue d) (s'.documentValue d') := by
  have hd := h.doc
  have hp := distinct_rel h.pending
  have he := h.entries
  unfold Scope.documentValue
  generalize s.doc = o, s'.doc = o' at hd
  cases hd with
  | none => exact rel_object he
  | some hd => exact rel_merged hs hd.fragment hp

lemma entryItem_rel {e e' : Entry} (h : L.EntryRel Γ e e') :
    L.ItemRel Γ (Scope.entryItem e) (Scope.entryItem e') := by
  cases h with
  | selected hf => exact .mk hf
  | passed hs => exact .mk (rel_column hs)

lemma isEmpty_eq_of_forall₂ {α β : Type} {R : α → β → Prop} {xs : List α} {ys : List β}
    (h : List.Forall₂ R xs ys) : xs.isEmpty = ys.isEmpty := by
  cases h <;> rfl

lemma ScopeRel.hasPending {s s' : Scope} (h : L.ScopeRel Γ s s') :
    s.hasPending = s'.hasPending := by
  unfold Scope.hasPending
  rw [isEmpty_eq_of_forall₂ h.computed, isEmpty_eq_of_forall₂ h.lookups,
    isEmpty_eq_of_forall₂ h.unwinds]

/-- Related scopes select related rows. -/
lemma ScopeRel.selectItems {s s' : Scope} (h : L.ScopeRel Γ s s') {d d' : Dialect}
    (hs : L.Speaks d d') (dataColumn : String) :
    List.Forall₂ (L.ItemRel Γ) (s.selectItems d dataColumn) (s'.selectItems d' dataColumn) := by
  have hv := h.documentValue hs
  have he := List.rel_map (fun _ _ he => entryItem_rel he) h.entries
  have hp := h.hasPending
  have hd := h.doc
  refine List.rel_append ?_ h.extras
  generalize s.doc = o, s'.doc = o' at hd
  cases hd with
  | none => exact he
  | some hd =>
    cases hd with
    | computed _ => exact .cons (.mk hv) .nil
    | column _ =>
      dsimp only
      rw [hp]
      split
      · exact .cons (.mk hv) .nil
      · exact .cons (.mk hv) .nil

/-! ## The names of columns -/

/-- Only a name by itself gives an item without a label its column. -/
lemma column_eq_none {f : Fragment} (h : ∀ t : Token, t.isName = true → f ≠ [.token t]) :
    SelectItem.column? ⟨f, none⟩ = none := by
  unfold SelectItem.column?
  split
  · next heq => cases heq
  · next name _ heq => exact absurd heq (h _ rfl)
  · next name heq => exact absurd heq (h _ rfl)
  · rfl

/-- Related items name the same column. -/
lemma ItemRel.column_eq {i i' : SelectItem} (h : L.ItemRel Γ i i') : i.column? = i'.column? := by
  obtain @⟨f, g, label, hf⟩ := h
  cases label with
  | some label => rfl
  | none =>
    by_cases ht : ∃ t : Token, t.isName = true ∧ f = [.token t]
    · obtain ⟨t, hn, rfl⟩ := ht
      rw [(L.name hf hn).1 rfl]
    · have hf' : ∀ t : Token, t.isName = true → f ≠ [.token t] := fun t hn e => ht ⟨t, hn, e⟩
      have hg' : ∀ t : Token, t.isName = true → g ≠ [.token t] :=
        fun t hn e => hf' t hn ((L.name hf hn).2 e)
      rw [column_eq_none hf', column_eq_none hg']

lemma columns_eq {is is' : List SelectItem} (h : List.Forall₂ (L.ItemRel Γ) is is') :
    is.map SelectItem.column? = is'.map SelectItem.column? := by
  induction h with
  | nil => rfl
  | cons hi _ ih => rw [List.map_cons, List.map_cons, hi.column_eq, ih]

lemma columnNames_eq {is is' : List SelectItem} (h : List.Forall₂ (L.ItemRel Γ) is is') :
    is.filterMap SelectItem.column? = is'.filterMap SelectItem.column? := by
  induction h with
  | nil => rfl
  | cons hi _ ih => simp only [List.filterMap_cons, hi.column_eq, ih]

/-- The column of an entry goes by its name. -/
lemma EntryRel.column {e e' : Entry} (h : L.EntryRel Γ e e') :
    (Scope.entryItem e).column? = some e.name.toString := by
  cases h <;> rfl

/-- A document without pending fields is written as it comes. -/
lemma documentValue_of_not_hasPending {s : Scope} {d : Dialect} {doc : DocSource}
    (hd : s.doc = some doc) (hp : s.hasPending = false) : s.documentValue d = doc.fragment := by
  simp only [Scope.hasPending, Bool.or_eq_false_iff, Bool.not_eq_false', List.isEmpty_iff] at hp
  obtain ⟨⟨hc, hl⟩, hu⟩ := hp
  simp [Scope.documentValue, hd, Scope.pending, hc, hl, hu, Entry.distinct, Scope.merged]

/-- A document is selected as the column of documents. -/
lemma columns_document {s : Scope} {doc : DocSource} (hd : s.doc = some doc) (d : Dialect)
    (dataColumn : String) : (s.selectItems d dataColumn).map SelectItem.column? =
      some dataColumn :: s.extras.map SelectItem.column? := by
  rw [Scope.selectItems, List.map_append]
  simp only [hd]
  cases doc with
  | computed f => rfl
  | column source name =>
    dsimp only
    split
    · next hc =>
      simp only [Bool.and_eq_true, Bool.not_eq_true', decide_eq_true_eq] at hc
      rw [documentValue_of_not_hasPending hd hc.1]
      simp [DocSource.fragment, Fragment.column, Fragment.ofToken, SelectItem.column?, hc.2]
    · rfl

/-- The select list of a document has the column of documents. -/
lemma dataColumn_mem {s : Scope} (d : Dialect) (dataColumn : String) (h : s.isDocument = true) :
    dataColumn ∈ (s.selectItems d dataColumn).filterMap SelectItem.column? := by
  obtain ⟨doc, hd⟩ := Option.isSome_iff_exists.1 h
  rw [List.mem_filterMap, ← List.mem_map, columns_document hd]
  exact List.mem_cons_self

/-- The select list of a row of columns has the column of every entry. -/
lemma ScopeRel.entry_mem {s s' : Scope} (h : L.ScopeRel Γ s s') (d : Dialect) (dataColumn : String)
    (hd : s.doc = none) {e : Entry} (he : e ∈ s.entries) :
    e.name.toString ∈ (s.selectItems d dataColumn).filterMap SelectItem.column? := by
  obtain ⟨i, hi, rfl⟩ := List.getElem_of_mem he
  have hc := (h.entries.get (i := i) (by omega) (h.entries.length_eq ▸ hi)).column
  rw [Scope.selectItems, List.filterMap_append, List.mem_append]
  left
  simp only [hd]
  exact List.mem_filterMap.2 ⟨_, List.mem_map.2 ⟨_, List.getElem_mem hi, rfl⟩, hc⟩

/-! ## Wrapping -/

lemma ScopeRel.isDocument {s s' : Scope} (h : L.ScopeRel Γ s s') :
    s.isDocument = s'.isDocument := by
  have hd := h.doc
  unfold Scope.isDocument
  generalize s.doc = o, s'.doc = o' at hd
  cases hd <;> rfl

/-- A stored document is a related scope once its column is in sight. -/
lemma scopeRel_document {label column : String} (h : Γ.Sees label column) :
    L.ScopeRel Γ (.document label column) (.document label column) where
  doc := .some (.column h)
  columns := .nil
  computed := .nil
  lookups := .nil
  unwinds := .nil
  extras := .nil

/-- A row of columns is a related scope. -/
lemma scopeRel_columns {cs cs' : List Column} (h : List.Forall₂ (L.ColumnRel Γ) cs cs') :
    L.ScopeRel Γ { columns := cs } { columns := cs' } where
  doc := .none
  columns := h
  computed := .nil
  lookups := .nil
  unwinds := .nil
  extras := .nil

/-- A computed document is a related scope. -/
lemma scopeRel_computed {f g : Fragment} (h : L.Rel Γ f g) :
    L.ScopeRel Γ { doc := some (.computed f) } { doc := some (.computed g) } where
  doc := .some (.computed h)
  columns := .nil
  computed := .nil
  lookups := .nil
  unwinds := .nil
  extras := .nil

/-- A computed field is added to related scopes. -/
lemma ScopeRel.compute {s s' : Scope} {c c' : Computed} (h : L.ScopeRel Γ s s')
    (hc : L.ComputedRel Γ c c') : L.ScopeRel Γ (s.compute c) (s'.compute c') := by
  have hfilter : List.Forall₂ (L.ComputedRel Γ) (s.computed.filter fun x => x.name != c.name)
      (s'.computed.filter fun x => x.name != c'.name) := by
    refine List.rel_filter (fun x y hxy => ?_) h.computed
    obtain ⟨_⟩ := hxy
    obtain ⟨_⟩ := hc
    rfl
  exact { h with computed := List.rel_append hfilter (.cons hc .nil) }

/-- Computed fields are added one by one to related scopes. -/
lemma ScopeRel.computeAll {cs cs' : List Computed} (hcs : List.Forall₂ (L.ComputedRel Γ) cs cs') :
    ∀ {s s' : Scope}, L.ScopeRel Γ s s' →
      L.ScopeRel Γ (cs.foldl Scope.compute s) (cs'.foldl Scope.compute s') := by
  induction hcs with
  | nil => exact fun h => h
  | cons hc _ ih => exact fun h => ih (h.compute hc)

/-- The scope around a wrapped row reads the columns that the wrapped row selects. -/
lemma ScopeRel.wrapped {Δ : Ctx} {s s' : Scope} {d : Dialect} {label dataColumn : String}
    (h : L.ScopeRel Γ s s')
    (sees : ∀ c ∈ (s.selectItems d dataColumn).filterMap SelectItem.column?, Δ.Sees label c) :
    L.ScopeRel Δ (s.wrapped label dataColumn) (s'.wrapped label dataColumn) := by
  unfold Scope.wrapped
  rw [← h.isDocument]
  split
  · next hd => exact scopeRel_document (sees _ (dataColumn_mem d dataColumn hd))
  · next hd =>
    have hd : s.doc = none := by simpa [Scope.isDocument] using hd
    refine scopeRel_columns (List.forall₂_map_left_iff.2 (List.forall₂_map_right_iff.2 ?_))
    refine List.forall₂_iff_get.2 ⟨h.entries.length_eq, fun i hi hi' => ?_⟩
    have he := h.entries.get hi hi'
    have hs := sees _ (h.entry_mem d dataColumn hd (List.get_mem s.entries ⟨i, hi⟩))
    rw [← he.name_eq, ← he.json_eq]
    exact .of hs

end FragmentLogic

end PipelineSql
