import PipelineSql.Proofs.ClauseOrder
import PipelineSql.Proofs.Confinement
import PipelineSql.Proofs.Exports
import PipelineSql.Proofs.Occurrences

/-!
# Group keys

The key of a group is written twice, in the select list and in the `GROUP BY`, and the database
takes the two for the same only if the texts are the same. The values of the key itself are written
in place. But a key may read a field that an earlier stage has computed in the same query, and then
the text of that field stands in the key with its values bound. Placeholders are numbered in the
order of the text, so the two occurrences of such a key differ.

Main result: the slots of a `GROUP BY` term are slots of texts in the row that the key reads, and
the two occurrences of a term are the same text exactly if the term has none.
-/

namespace PipelineSql

/-! ## Keys -/

/-- What a stage groups by. -/
inductive GroupingKey where
  /-- All rows are one group. -/
  | constant
  | single (e : Expr)
  /-- Several expressions, which `_id` has under these names. -/
  | named (fields : List (String × Expr))
  | bucket (spec : Bucket)

namespace GroupingKey

/-- The key that an identity asks for. -/
def ofId : Option Expr → GroupingKey
  | none | some (.lit _) => .constant
  | some (.compoundId fields) | some (.document fields) => .named fields
  | some e => .single e

/-- The expressions of a key, one for each term of the `GROUP BY`. -/
def parts : GroupingKey → List Expr
  | .constant => []
  | .single e => [e]
  | .named fields => fields.map Prod.snd
  | .bucket spec => [spec.groupBy]

/-- Are the parts written at all? A bucketing compares its subject with pairs of boundaries. -/
def Occurs : GroupingKey → Prop
  | .bucket spec => 2 ≤ spec.boundaries.length
  | .constant | .single _ | .named _ => True

/-- A part of `_id` under its name. -/
def member (p : String × Expr) (f : Fragment) : Entry :=
  { name := .ofString p.1, value := f, json := false }

/-- Is `_id` selected as the only term, or as the object of all terms? -/
def Selects : GroupingKey → List Fragment → Fragment → Prop
  | .constant, terms, id => terms = [] ∧ id.slots = []
  | .single _, terms, id | .bucket _, terms, id => terms = [id]
  | .named fields, terms, id => id = Entry.object (List.zipWith member fields terms)

/-- Do the parts of `_id` have distinct names without dots? Of two values for one name the last
wins, and dotted names nest. -/
def PlainNames : GroupingKey → Prop
  | .named fields => (fields.map Prod.fst).Nodup ∧
      ∀ p ∈ fields, (Path.ofString p.1).segments = [p.1]
  | .constant | .single _ | .bucket _ => True

/-- The slots of a term are slots of what its expression reads in the row. If the expression is a
field, they are exactly those of the text for which the path stands. -/
structure Reads (key : GroupingKey) (σ : Scope) (e : Expr) (f : Fragment) : Prop where
  confined : f.Confined (e.slotsRead σ)
  field : ∀ p, e = .field p → ∀ slot, slot ∈ f.slots ↔
    key.Occurs ∧ slot ∈ (σ.resolve p.path false).texts.flatMap Fragment.slots

end GroupingKey

/-- The key by which a stage groups. -/
def Stage.groupingKey? : Stage → Option GroupingKey
  | .group g => some (.ofId g.id)
  | .bucket spec => some (.bucket spec)
  | _ => none

/-! ## Terms in the text of the key -/

lemma GroupingKey.map_member {fields : List (String × Expr)} {terms : List Fragment}
    (h : fields.length = terms.length) :
    (List.zipWith member fields terms).map Entry.name = fields.map (fun p => .ofString p.1) ∧
      (List.zipWith member fields terms).map Entry.value = terms ∧
      ∀ e ∈ List.zipWith member fields terms, e.json = false := by
  induction fields generalizing terms with
  | nil =>
    rw [List.eq_nil_of_length_eq_zero h.symm]
    exact ⟨rfl, rfl, nofun⟩
  | cons p fields ih =>
    cases terms with
    | nil => cases h
    | cons f terms =>
      obtain ⟨hname, hvalue, hjson⟩ := ih (Nat.succ.inj h)
      exact ⟨congrArg (List.cons _) hname, congrArg (List.cons _) hvalue,
        List.forall_mem_cons.2 ⟨rfl, hjson⟩⟩

/-- Each term stands in the text of `_id`. -/
lemma GroupingKey.Selects.infix_of_mem {key : GroupingKey} {terms : List Fragment} {id f : Fragment}
    (h : key.Selects terms id) (hlength : key.parts.length = terms.length)
    (hnames : key.PlainNames) (hf : f ∈ terms) : f.tokens <:+: id.tokens := by
  cases key with
  | constant =>
    rw [h.1] at hf
    cases hf
  | single e =>
    obtain rfl : terms = [id] := h
    obtain rfl : f = id := List.mem_singleton.1 hf
    exact List.infix_rfl
  | bucket spec =>
    obtain rfl : terms = [id] := h
    obtain rfl : f = id := List.mem_singleton.1 hf
    exact List.infix_rfl
  | named fields =>
    obtain rfl : id = _ := h
    obtain ⟨hnodup, hplain⟩ := hnames
    rw [parts, List.length_map] at hlength
    obtain ⟨hname, hvalue, hjson⟩ := map_member hlength
    have hroot : (List.zipWith member fields terms).map (fun e => e.name.root) =
        fields.map Prod.fst := by
      have hroots := congrArg (List.map Path.root) hname
      rw [List.map_map, List.map_map] at hroots
      refine hroots.trans (List.map_congr_left fun p hp => ?_)
      simp [Path.root, hplain p hp]
    rw [← hvalue] at hf
    obtain ⟨e, he, rfl⟩ := List.mem_map.1 hf
    refine Entry.infix_object (fun x hx => ?_) (hroot ▸ hnodup) he (hjson e he)
    have hmem := List.mem_map_of_mem (f := Entry.name) hx
    rw [hname] at hmem
    obtain ⟨p, hp, hpx⟩ := List.mem_map.1 hmem
    rw [← hpx, Path.root, hplain p hp]
    rfl

/-! ## Slots of keys -/

lemma slots_jsonQuery (doc : Fragment) (path : String) (wrapper : Bool) :
    (jsonQuery doc path wrapper).slots = doc.slots := by
  simp [jsonQuery, Fragment.paren]

lemma slots_jsonValue (d : Dialect) (doc : Fragment) (path : String) (type : Option JsonType) :
    (jsonValue d doc path type).slots = doc.slots := by
  unfold jsonValue
  split
  · exact slots_jsonQuery ..
  · simp [Fragment.call, Fragment.paren, Fragment.commas, Fragment.joined]
  · simp [Fragment.call, Fragment.paren, Fragment.commas, Fragment.joined]
  · simp [Fragment.paren]

lemma Location.slots_scalar (d : Dialect) (l : Location) (type : Option JsonType) :
    (l.scalar d type).slots = l.doc.slots := by
  have hsteps (steps : List String) :
      Fragment.slots (steps.map fun s => Fragment.ofToken (.step s)).flatten = [] := by
    induction steps with
    | nil => rfl
    | cons s steps ih =>
      rw [List.map_cons, List.flatten_cons, Fragment.slots_append, ih, List.append_nil]
      exact Fragment.slots_token rfl
  unfold Location.scalar
  split
  · exact slots_jsonQuery ..
  · split
    · simp [Location.dotFragment, hsteps]
    · exact slots_jsonValue ..

/-- A field has the slots of the text for which its path stands. -/
lemma Env.slots_fieldValue (env : Env) (p : Path) (type : Option JsonType) :
    (env.fieldValue p type).slots =
      (env.scope.resolve p false).texts.flatMap Fragment.slots := by
  unfold Env.fieldValue Env.resolve
  cases env.scope.resolve p false with
  | value f json =>
    simp only [Resolved.texts, List.flatMap_singleton]
    split
    · rfl
    · rfl
    · split
      · exact slots_jsonValue ..
      · rfl
  | place l =>
    simp only [Resolved.texts, List.flatMap_singleton]
    exact l.slots_scalar ..
  | missing => rfl

lemma Fragment.slots_cases (branches : List (Fragment × Fragment)) (otherwise : Option Fragment) :
    (Fragment.cases branches otherwise).slots =
      (branches.flatMap fun x => x.1.slots ++ x.2.slots) ++ otherwise.toList.flatMap slots := by
  have hbranches : Fragment.slots (branches.flatMap fun x =>
      text " WHEN " ++ x.1 ++ text " THEN " ++ x.2) =
      branches.flatMap fun x => x.1.slots ++ x.2.slots := by
    induction branches with
    | nil => rfl
    | cons x xs ih =>
      rw [List.flatMap_cons, List.flatMap_cons, slots_append, ih]
      simp
  unfold Fragment.cases
  dsimp only
  rw [slots_group, slots_append]
  refine congrArg₂ (· ++ ·) hbranches ?_
  cases otherwise with
  | none => rfl
  | some f => simp

open Render

section Inline

variable {env : Env} (hinline : env.inline = true)

include hinline

/-- A value that is written in place has no slot. -/
lemma yields_literal_inline (l : Literal) : (literal l).Yields env fun f => f.slots = [] := by
  unfold literal
  split
  · exact yields_pure (Fragment.slots_token rfl)
  · exact yields_pure (Fragment.slots_token rfl)
  · refine yields_read ?_
    rw [if_pos hinline]
    exact yields_pure (Fragment.slots_token (Token.slot?_literal l))

/-- A part of a key, rendered as any type. -/
lemma yields_part (key : GroupingKey) (hkey : key.Occurs) (e : Expr) (type : Option JsonType) :
    ((Reading.ofExpr e).value type).Yields env (key.Reads env.scope e) := by
  intro s f s' hrun
  refine ⟨e.yields_confined hinline type hrun, ?_⟩
  rintro p rfl slot
  have hfield : ((Reading.ofExpr (.field p)).value type).Yields env fun f =>
      f.slots = (env.scope.resolve p.path false).texts.flatMap Fragment.slots := by
    rw [Reading.ofExpr]
    exact yields_then fun _ => yields_read (yields_pure (env.slots_fieldValue ..))
  rw [hfield hrun]
  exact (and_iff_right hkey).symm

namespace Draft

lemma yields_between_slots (subject : Fragment) (low high : Literal) :
    (between subject low high).Yields env fun c =>
      c.fragment.slots = subject.slots ++ subject.slots := by
  refine yields_bind (yields_literal_inline hinline low) fun l hl => ?_
  refine yields_bind (yields_literal_inline hinline high) fun h hh => yields_pure ?_
  simp [Condition.fragment, hl, hh]

/-- There is a bucket between each boundary and the next. -/
lemma yields_buckets_slots (subject : Fragment) (boundaries : List Literal) :
    (buckets subject boundaries).Yields env fun found =>
      (found ≠ [] ↔ 2 ≤ boundaries.length) ∧
        ∀ x ∈ found, x.1.fragment.slots = subject.slots ++ subject.slots := by
  induction boundaries with
  | nil => exact yields_pure (by simp)
  | cons low rest ih =>
    cases rest with
    | nil => exact yields_pure (by simp)
    | cons high rest =>
      rw [buckets]
      refine yields_bind (yields_between_slots hinline subject low high) fun c hc => ?_
      refine yields_bind ih fun found hfound => yields_pure ⟨by simp, ?_⟩
      exact List.forall_mem_cons.2 ⟨hc, hfound.2⟩

lemma yields_bucketId_slots (asText : Bool) (l : Literal) :
    (bucketId asText l).Yields env fun f => f.slots = [] :=
  yields_ite (fun _ => yields_pure (Fragment.slots_string _)) fun _ =>
    yields_literal_inline hinline l

end Draft

end Inline

namespace Draft

variable {env : Env} {b b₀ b' : Draft}

/-- The branches of a bucketing have the slots of the subject, if there are any branches. -/
lemma mem_slots_branches {subject : Fragment} {found : List (Condition × Literal)}
    {branches : List (Fragment × Fragment)} {slot : Nat}
    (h : List.Forall₂ (fun x y => y.1 = x.1.fragment ∧ y.2.slots = []) found branches)
    (hfound : ∀ x ∈ found, x.1.fragment.slots = subject.slots ++ subject.slots) :
    slot ∈ branches.flatMap (fun x => x.1.slots ++ x.2.slots) ↔
      found ≠ [] ∧ slot ∈ subject.slots := by
  induction h with
  | nil => simp
  | cons hxy _ ih =>
    obtain ⟨hx, hxs⟩ := List.forall_mem_cons.1 hfound
    rw [List.flatMap_cons, hxy.1, hxy.2, hx, List.append_nil, List.mem_append, ih hxs]
    simp +contextual

/-- The identity of a bucket has the slots of what is compared with the boundaries. -/
lemma yields_bucketKey_reads (spec : Bucket) (numeric asText : Bool) :
    (bucketKey spec numeric asText).Yields env fun k =>
      (GroupingKey.bucket spec).Reads env.scope spec.groupBy k.id := by
  have hsubject : (bucketSubject spec numeric).Yields { env with inline := true }
      ((GroupingKey.single spec.groupBy).Reads env.scope spec.groupBy) :=
    yields_ite (fun _ => yields_part rfl (.single _) trivial _ _)
      fun _ => yields_part rfl (.single _) trivial _ _
  refine yields_inlined (yields_bind hsubject fun subject hreads => ?_)
  refine yields_bind (yields_buckets_slots rfl subject spec.boundaries) fun found hfound => ?_
  refine yields_bind (yields_mapM (R := fun x y => y.1 = x.1.fragment ∧ y.2.slots = [])
    fun x _ => ?_) fun branches hbranches => ?_
  · exact yields_bind (yields_bucketId_slots rfl asText x.2) fun v hv => yields_pure ⟨rfl, hv⟩
  refine yields_bind (yields_optionMapM fun l _ => yields_bucketId_slots rfl asText l) ?_
  intro default hdefault
  refine yields_then fun inRange => yields_pure ?_
  have hslots slot : slot ∈ (Fragment.cases branches default).slots ↔
      2 ≤ spec.boundaries.length ∧ slot ∈ subject.slots := by
    have hnone : default.toList.flatMap Fragment.slots = [] := by
      simpa [List.flatMap_eq_nil_iff] using hdefault
    rw [Fragment.slots_cases, hnone, List.append_nil, ← hfound.1]
    exact mem_slots_branches hbranches hfound.2
  refine ⟨fun slot hslot => hreads.confined slot ((hslots slot).1 hslot).2, fun p hp slot => ?_⟩
  rw [hslots, hreads.field p hp]
  exact and_congr_right fun _ => and_iff_right trivial

lemma yields_compoundKey_reads (hinline : env.inline = true) (fields : List (String × Expr)) :
    (compoundKey fields).Yields env fun k => (GroupingKey.named fields).Selects k.terms k.id ∧
      List.Forall₂ ((GroupingKey.named fields).Reads env.scope) (fields.map Prod.snd) k.terms := by
  refine yields_bind (yields_mapM (R := fun p x => x.1 = p.1 ∧
    (GroupingKey.named fields).Reads env.scope p.2 x.2) fun p _ => ?_) fun parts hparts => ?_
  · refine yields_bind (yields_part hinline (.named fields) trivial p.2 none) fun f hf => ?_
    exact yields_pure ⟨rfl, hf⟩
  · refine yields_pure ⟨congrArg Entry.object ?_, ?_⟩
    · generalize (GroupingKey.named fields).Reads env.scope = R at hparts
      dsimp only
      induction hparts with
      | nil => rfl
      | @cons p x _ _ hp _ ih =>
        obtain ⟨_, _⟩ := x
        obtain ⟨_, _⟩ := p
        obtain ⟨rfl, _⟩ := hp
        exact congrArg (List.cons _) ih
    · rw [List.forall₂_map_left_iff, List.forall₂_map_right_iff]
      exact hparts.imp fun p x h => h.2

lemma yields_groupKey_reads (id : Option Expr) :
    (groupKey id).Yields env fun k => (GroupingKey.ofId id).Selects k.terms k.id ∧
      List.Forall₂ ((GroupingKey.ofId id).Reads env.scope) (GroupingKey.ofId id).parts k.terms := by
  refine yields_inlined ?_
  cases id with
  | none => exact yields_pure ⟨⟨rfl, Fragment.slots_null⟩, .nil⟩
  | some e =>
    cases e with
    | lit l =>
      exact yields_bind (yields_literal_inline rfl l) fun f hf => yields_pure ⟨⟨rfl, hf⟩, .nil⟩
    | compoundId fields => exact yields_compoundKey_reads rfl fields
    | document fields => exact yields_compoundKey_reads rfl fields
    | _ =>
      exact yields_bind (yields_part rfl (.single _) trivial _ none) fun f hf =>
        yields_pure ⟨rfl, .cons hf .nil⟩

/-! ## Queries of one part -/

/-- Is the query one of its own, without named subqueries? -/
structure Plain (b : Draft) : Prop where
  ctes : b.query.ctes = []
  compound : b.query.compound = none

lemma Wraps.plain (h : Wraps env b b₀) : b₀.Plain := by
  obtain ⟨label, terms, hquery⟩ := h.query
  exact ⟨by rw [hquery], by rw [hquery]⟩

lemma Readies.plain {Takes : Draft → Prop} (h : Readies env Takes b b₀) (hb : b.Plain) :
    b₀.Plain := by
  rcases h.keptOrWrapped with ⟨_, rfl⟩ | ⟨_, hwraps⟩
  · exact hb
  · exact hwraps.plain

lemma Aggregates.plain (h : Aggregates b b') (hb : b.Plain) : b'.Plain := by
  obtain ⟨filters, terms, having, orderBy, scope, ordering, _, rfl⟩ := h
  exact ⟨hb.ctes, hb.compound⟩

/-- No stage makes the query a compound one; what it unites becomes the source of a query. -/
lemma Extends.plain {s : Stage} (h : Extends env s b b') (hb : b.Plain) : b'.Plain := by
  cases s with
  | filter test =>
    rcases h with ⟨_, c, rfl⟩ | ⟨_, b₀, hready, c, rfl⟩
    · exact ⟨hb.ctes, hb.compound⟩
    · exact ⟨(hready.plain hb).ctes, (hready.plain hb).compound⟩
  | redact decision =>
    obtain ⟨b₀, hready, c, rfl⟩ := h
    exact ⟨(hready.plain hb).ctes, (hready.plain hb).compound⟩
  | lookup spec | unwind spec | graphLookup spec =>
    obtain ⟨b₀, hready, j, scope, ctes, rfl⟩ := h
    exact ⟨(hready.plain hb).ctes, (hready.plain hb).compound⟩
  | group spec | count spec | bucket spec =>
    obtain ⟨b₀, hready, hagg⟩ := h
    exact hagg.plain (hready.plain hb)
  | bucketAuto spec =>
    obtain ⟨b₀, scope, b₁, _, hwraps, _, hagg⟩ := h
    exact hagg.plain hwraps.plain
  | sort keys hint | sample n =>
    obtain ⟨b₀, hready, terms, rows, ordering, rfl⟩ := h
    exact ⟨(hready.plain hb).ctes, (hready.plain hb).compound⟩
  | project fields | unset names | replaceRoot root =>
    obtain ⟨b₀, hready, scope, rfl⟩ := h
    exact ⟨(hready.plain hb).ctes, (hready.plain hb).compound⟩
  | limit n | skip n =>
    obtain ⟨rows, rfl⟩ := h
    exact ⟨hb.ctes, hb.compound⟩
  | addFields fields =>
    obtain ⟨b₀, rfl | hwraps, scope, rfl⟩ := h
    · exact ⟨hb.ctes, hb.compound⟩
    · exact ⟨hwraps.plain.ctes, hwraps.plain.compound⟩
  | windowFields spec =>
    obtain ⟨b₀, _, rfl | hwraps, scope, rfl⟩ := h
    · exact ⟨hb.ctes, hb.compound⟩
    · exact ⟨hwraps.plain.ctes, hwraps.plain.compound⟩
  | facet facets | unionWith source nested =>
    obtain ⟨source, scope, ctes, rfl⟩ := h
    exact ⟨rfl, rfl⟩
  | lookupPipeline | merge | out => exact h.elim

lemma Reachable.plain (h : b.Reachable) : b.Plain := by
  refine h.invariant (fun _ _ _ _ => ?_) (fun _ _ _ _ => ?_) fun s b env hr hb => ?_
  · exact yields_then fun _ => yields_pure ⟨rfl, rfl⟩
  · exact yields_then fun _ => yields_then fun _ => yields_pure ⟨rfl, rfl⟩
  · exact (yields_stage hr.sound s).imp fun _ hs => hs.plain hb

/-! ## Grouped drafts -/

/-- The draft whose rows are grouped: the draft itself if it takes groups, and else the one around
it. -/
def GroupsOver (env : Env) (b b₀ : Draft) : Prop :=
  b.TakesGroups ∧ b₀ = b ∨ ¬ b.TakesGroups ∧ ∃ label, b₀ = b.around env label

/-- The draft groups the rows of a scope by a key and selects the key as `_id`, beside other
columns. -/
structure GroupedBy (key : GroupingKey) (σ : Scope) (id : Fragment) (columns : List Column)
    (b : Draft) : Prop where
  scope : ∃ json, b.scope = { columns := idColumn id json :: columns }
  selects : key.Selects b.query.groupBy id
  reads : List.Forall₂ (key.Reads σ) key.parts b.query.groupBy

lemma yields_groupStage_key (b : Draft) (g : Group) :
    (b.groupStage g).Yields env fun b' => ∃ b₀ id columns, GroupsOver env b b₀ ∧
      GroupedBy (.ofId g.id) b₀.scope id columns b' := by
  unfold groupStage
  refine yields_bind (yields_groupingReady_cases b) fun b₀ hover => ?_
  refine yields_bind (yields_within (yields_groupKey_reads g.id)) fun key hkey => ?_
  refine yields_then fun columns => yields_pure ⟨b₀, key.id, columns, hover, ?_⟩
  split
  · exact ⟨⟨key.json, rfl⟩, hkey.1, hkey.2⟩
  · exact ⟨⟨key.json, rfl⟩, hkey.1, hkey.2⟩

lemma yields_bucketStage_key (b : Draft) (spec : Bucket) :
    (b.bucketStage spec).Yields env fun b' => ∃ b₀ id columns, GroupsOver env b b₀ ∧
      GroupedBy (.bucket spec) b₀.scope id columns b' := by
  unfold bucketStage
  refine yields_bind (yields_groupingReady_cases b) fun b₀ hover => yields_warn_if ?_
  refine yields_bind (yields_within (yields_bucketKey_reads spec _ _)) fun key hkey => ?_
  refine yields_then fun columns => yields_pure ⟨b₀, key.id, columns, hover, ?_⟩
  split
  · exact ⟨⟨false, rfl⟩, rfl, .cons hkey .nil⟩
  · exact ⟨⟨false, rfl⟩, rfl, .cons hkey .nil⟩

lemma yields_stage_key {s : Stage} {key : GroupingKey} (hs : s.groupingKey? = some key)
    (b : Draft) : (stage s b).Yields env fun b' => ∃ b₀ id columns, GroupsOver env b b₀ ∧
      GroupedBy key b₀.scope id columns b' := by
  cases s with
  | group g =>
    cases hs
    rw [stage]
    exact yields_groupStage_key b g
  | bucket spec =>
    cases hs
    rw [stage]
    exact yields_bucketStage_key b spec
  | _ => cases hs

/-- A slot of a term is one of a text in the row of the draft, which was not wrapped. -/
lemma GroupsOver.of_slot {e : Expr} {slot : Nat} (h : GroupsOver env b b₀)
    (hslot : slot ∈ e.slotsRead b₀.scope) :
    b.TakesGroups ∧ ∃ f ∈ b.scope.texts, slot ∈ f.slots := by
  obtain ⟨f, hf, hmem⟩ := Expr.exists_text_of_slotsRead hslot
  rcases h with ⟨ht, rfl⟩ | ⟨_, label, rfl⟩
  · exact ⟨ht, f, hf, hmem⟩
  · change f ∈ (b.scope.wrapped label env.dataColumn).texts at hf
    rw [Scope.texts_wrapped] at hf
    cases hf

lemma GroupedBy.exists_part {key : GroupingKey} {σ : Scope} {id f : Fragment}
    {columns : List Column} (h : GroupedBy key σ id columns b) (hf : f ∈ b.query.groupBy) :
    ∃ e ∈ key.parts, key.Reads σ e f := by
  have hreads := h.reads
  generalize key.parts = parts, b.query.groupBy = terms at hreads hf
  induction hreads with
  | nil => cases hf
  | cons hef _ ih =>
    rcases List.mem_cons.1 hf with rfl | hf
    · exact ⟨_, List.mem_cons_self, hef⟩
    · obtain ⟨e, he, hr⟩ := ih hf
      exact ⟨e, List.mem_cons_of_mem _ he, hr⟩

/-- The key is selected unless another column goes by its name. -/
lemma GroupedBy.mem_selectItems {key : GroupingKey} {σ : Scope} {id : Fragment}
    {columns : List Column} (h : GroupedBy key σ id columns b)
    (hnames : ∀ c ∈ columns, c.name ≠ Projection.idPath) (d : Dialect) (data : String) :
    .named id "_id" ∈ b.scope.selectItems d data := by
  obtain ⟨json, hscope⟩ := h.scope
  have hentry : Entry.ofColumn (idColumn id json) ∈ b.scope.entries := by
    rw [hscope, Scope.entries, Entry.mem_distinct_iff, List.map_cons, List.cons_append,
      List.reverse_cons, List.find?_append, List.find?_eq_none.2]
    · simp
    · intro x hx
      simp only [Scope.pending, List.map_nil, List.flatMap_nil, List.append_nil,
        List.mem_reverse, List.mem_map] at hx
      obtain ⟨c, hc, rfl⟩ := hx
      simpa [Entry.name_ofColumn, idColumn] using hnames c hc
  rw [Scope.selectItems, hscope]
  rw [hscope] at hentry
  exact List.mem_append_left _ (List.mem_map_of_mem hentry)

/-- The terms of a `GROUP BY` have no slots of their own: those of a term are slots of texts that
the key reads in the row, which has none if the query had to be wrapped, and for a field they are
those of the text for which it stands. The term is selected as `_id`, or in it if the names of the
parts are plain. In the text of the finished query, wherever the numbers begin, a selected term and
the one in the `GROUP BY` are the same exactly if the term has no slot. -/
theorem group_key_alike_iff_unbound {b : Draft} (hb : b.Reachable) {s : Stage} {key : GroupingKey}
    (hs : s.groupingKey? = some key) {env : Env} {e e' : Emission} {b' : Draft}
    (hrun : ((stage s b).run env).run e = .ok b' e') :
    ∃ b₀ id columns, GroupsOver env b b₀ ∧ GroupedBy key b₀.scope id columns b' ∧
      (∀ f ∈ b'.query.groupBy, ∀ slot ∈ f.slots,
        b.TakesGroups ∧ ∃ text ∈ b.scope.texts, slot ∈ text.slots) ∧
      (key.PlainNames → ∀ f ∈ b'.query.groupBy, f.tokens <:+: id.tokens) ∧
      ∀ (d : Dialect) (data : String) (q : Query),
        q = { b'.query with items := b'.scope.selectItems d data } →
        ((∀ c ∈ columns, c.name ≠ Projection.idPath) → .named id "_id" ∈ q.items) ∧
        ∃ after, (q.fragment d).tokens = q.selectKeyword.tokens ++
            (Query.selectList q.items).tokens ++ (q.rowClauses d).tokens ++
            q.groupClause.tokens ++ after ∧
          ∀ i ∈ q.items, ∀ f ∈ q.groupBy, f.tokens <:+: i.value.tokens →
            Token.AlikeIffUnbound f.tokens q.selectKeyword.tokens
              (Query.selectList q.items).tokens (q.rowClauses d).tokens q.groupClause.tokens
              after := by
  obtain ⟨b₀, id, columns, hover, hgrouped⟩ := yields_stage_key hs b hrun
  have hplain := (Reachable.stage hb hrun).plain
  refine ⟨b₀, id, columns, hover, hgrouped, ?_, ?_, ?_⟩
  · intro f hf slot hslot
    obtain ⟨e, _, hreads⟩ := hgrouped.exists_part hf
    exact hover.of_slot (hreads.confined slot hslot)
  · intro hnames f hf
    exact hgrouped.selects.infix_of_mem hgrouped.reads.length_eq hnames hf
  · rintro d data q rfl
    obtain ⟨after, htokens⟩ := Query.tokens_fragment
      (q := { b'.query with items := b'.scope.selectItems d data }) hplain.ctes hplain.compound d
    refine ⟨fun hnames => hgrouped.mem_selectItems hnames d data, after, htokens, ?_⟩
    intro i hi f hf hvalue
    exact Token.alikeIffUnbound _ _ _ (hvalue.trans (Query.infix_selectList hi))
      (Query.infix_listClause _ hf)

/-- A label that is computed with a bound value. -/
def addLabel : Stage :=
  .addFields [(⟨["x"]⟩, .text .concat [.field { path := ⟨["a"]⟩ }, .lit (.string "z")])]

/-- One group for each label. -/
def byLabel : Stage :=
  .group ⟨some (.field { path := ⟨["x"]⟩ }), []⟩

/-- Rows that are cut are grouped in the query around, where the label is a column: the key is not
bound, although the label is. -/
theorem cutLabels_key_unbound : ∃ b : Draft, b.Reachable ∧ (∃ f ∈ b.scope.texts, f.slots ≠ []) ∧
    ∃ env e b' e', ((stage byLabel b).run env).run e = .ok b' e' ∧ b'.query.groupBy ≠ [] ∧
      ∀ f ∈ b'.query.groupBy, f.slots = [] := by
  let env := Env.of { collection := "orders" } {}
  have hbase : ((ofCollection "orders" baseAlias []).run env).run {} = .ok _ _ := rfl
  have hlabels {b} (hb : b.Reachable) {b' e'}
      (h : ((stage addLabel b).run env).run {} = .ok b' e') : b'.Reachable :=
    .stage hb h
  have hcuts {b} (hb : b.Reachable) {b' e'}
      (h : ((stage (.limit 3) b).run env).run {} = .ok b' e') : b'.Reachable :=
    .stage hb h
  have hgroups {b} (hb : b.Reachable) (hcut : b.query.rows.isLimited = true) {b' e'}
      (h : ((stage byLabel b).run env).run {} = .ok b' e') :
      ∀ f ∈ b'.query.groupBy, f.slots = [] := by
    obtain ⟨_, _, _, _, _, hslots, -⟩ := group_key_alike_iff_unbound hb (s := byLabel) rfl h
    intro f hf
    rw [List.eq_nil_iff_forall_not_mem]
    intro slot hslot
    have htakes := (hslots f hf slot hslot).1
    rw [htakes.notCut] at hcut
    cases hcut
  have hcut := hcuts (hlabels (.collection hbase) rfl) rfl
  exact ⟨_, hcut, ⟨_, List.mem_singleton_self _, List.cons_ne_nil _ _⟩, env, {}, _, _, rfl,
    List.cons_ne_nil _ _, hgroups hcut rfl rfl⟩

/-- The label by which rows are grouped is bound twice, and so the two texts of the key differ. -/
theorem labels_key_bound_twice :
    (∃ b e, ((ofCollection "orders" baseAlias [] >>= stages [addLabel, byLabel]).run
        (Env.of { collection := "orders" } {})).run {} = .ok b e ∧
      ∃ f, b.query.groupBy = [f] ∧ f.slots = [0] ∧
        ∀ d data, b.scope.selectItems d data = [.named f "_id"]) ∧
    (compile { stages := [addLabel, byLabel] } { collection := "orders" } {}).toOption.map
        Compiled.sql =
      some ("SELECT CASE WHEN base.data.a.string() IS NULL THEN NULL " ++
        "ELSE base.data.a.string() || :1 END AS \"_id\" FROM orders base " ++
        "GROUP BY CASE WHEN base.data.a.string() IS NULL THEN NULL " ++
        "ELSE base.data.a.string() || :2 END") := by
  refine ⟨⟨_, _, rfl, _, rfl, rfl, fun _ _ => rfl⟩, ?_⟩
  decide +kernel

end Draft

end PipelineSql
