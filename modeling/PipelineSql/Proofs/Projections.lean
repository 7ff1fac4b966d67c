import Mathlib.Data.List.Basic
import PipelineSql.Proofs.Coherence
import PipelineSql.Proofs.Reading

/-!
# What a projection does to a document

A projection is applied to a document as a run of writes. An exclusion removes each path that it
lists. An inclusion starts from nothing and copies `_id`, unless that is dropped, and each field
that is kept; then it writes what is computed, in order, over what is at its path. What expressions
mean is left open but for fields, whose value is that of the document.

`Projection.preserves` tells whether a path passes a projection unchanged. It asks only for an entry
at or above the path, so a change below the path escapes it, and so does a field that an inclusion
computes over what it keeps. Where nothing of the kind overlaps the path, the whole value at the
path is that of the document.
-/

namespace PipelineSql

namespace Json

/-- A document of nested objects, without arrays. -/
def Plain (d : Json) : Prop :=
  ∀ ks, Open ks d

/-- The document after some writes, the first one first. -/
def assignAll (ws : List (Path × Option Json)) (d : Json) : Json :=
  ws.foldl (fun d w => assign w.1.segments w.2 d) d

lemma Plain.of_at? {p : List String} {d v : Json} (hd : d.Plain) (h : at? p d = some v) :
    v.Plain :=
  fun ks => (open_append.1 (hd (p ++ ks))).2 v h

lemma plain_assignAll {ws : List (Path × Option Json)} (hw : ∀ w ∈ ws, ∀ v ∈ w.2, v.Plain)
    {d : Json} (hd : d.Plain) : (assignAll ws d).Plain := by
  induction ws generalizing d with
  | nil => exact hd
  | cons w ws ih =>
    obtain ⟨hw, hws⟩ := List.forall_mem_cons.1 hw
    exact ih hws fun ks => open_assign (hd ks) fun r _ v hv => hw v hv r

/-! ## Copies -/

section Copies

variable {source d : Json} {n q : List String} (hs : source.Plain)
include hs

/-- A copy leaves every path open. -/
lemma open_assign_copy (ho : Open q d) : Open q (assign n (at? n source) d) :=
  open_assign ho fun r _ _ hv => hs.of_at? hv r

/-- A copy at or above a path makes its value that of the source. -/
lemma at?_assign_above (ho : Open q d) (hn : n <+: q) :
    at? q (assign n (at? n source) d) = at? q source := by
  obtain ⟨r, rfl⟩ := hn
  rw [at?_append (hs n)]
  cases hv : at? n source with
  | some v => exact at?_set_append n r v d
  | none =>
    have hne : n ≠ [] := by
      rintro rfl
      cases hv
    exact at?_remove_append hne (open_append.1 ho).1 r

/-- A copy below a path keeps the value at the path, if that is the source's already. -/
lemma at?_assign_below (ho : Open q d) (hq : q <+: n) (h : at? q d = at? q source) :
    at? q (assign n (at? n source) d) = at? q source := by
  obtain ⟨r, rfl⟩ := hq
  have hsame : at? (q ++ r) source = at? (q ++ r) d := by
    rw [at?_append (hs q), at?_append ho, h]
  have hopen : Open (q ++ r) d :=
    open_append.2 ⟨ho, fun v hv => hs.of_at? (h ▸ hv) r⟩
  rw [hsame, assign_at?_self hopen, h]

variable {p : Path} {w : Path × Option Json} {ws : List (Path × Option Json)}

omit hs in
/-- A write apart from a path leaves the path as it was. -/
lemma at?_assign_of_not_overlaps {v : Option Json} (ho : Open p.segments d) {m : Path}
    (hm : ¬ p.overlaps m = true) :
    Open p.segments (assign m.segments v d) ∧
      at? p.segments (assign m.segments v d) = at? p.segments d := by
  rw [Path.overlaps, Bool.or_eq_true, Path.isWithin_iff, Path.isWithin_iff] at hm
  obtain ⟨hwithin, hbelow⟩ := not_or.1 hm
  exact ⟨open_assign ho fun r hr => absurd ⟨r, hr.symm⟩ hwithin,
    at?_assign_apart ho hwithin hbelow⟩

/-- A write that is a copy wherever it overlaps a path keeps the path open. -/
lemma open_write (hw : p.overlaps w.1 = true → w.2 = source.at? w.1.segments)
    (ho : Open p.segments d) : Open p.segments (assign w.1.segments w.2 d) := by
  by_cases hover : p.overlaps w.1 = true
  · rw [hw hover]
    exact open_assign_copy hs ho
  · exact (at?_assign_of_not_overlaps ho hover).1

/-- Such a write brings the value of the source to the paths at and below it, and leaves it to those
that have it. -/
lemma at?_write (hw : p.overlaps w.1 = true → w.2 = source.at? w.1.segments)
    (ho : Open p.segments d)
    (h : at? p.segments d = at? p.segments source ∨ p.isWithin w.1 = true) :
    at? p.segments (assign w.1.segments w.2 d) = at? p.segments source := by
  by_cases hover : p.overlaps w.1 = true
  · rw [hw hover]
    by_cases hwithin : p.isWithin w.1 = true
    · exact at?_assign_above hs ho (Path.isWithin_iff.1 hwithin)
    · have hbelow : w.1.isWithin p = true := (Bool.or_eq_true_iff.1 hover).resolve_left hwithin
      exact at?_assign_below hs ho (Path.isWithin_iff.1 hbelow) (h.resolve_right hwithin)
  · have hwithin : ¬ p.isWithin w.1 = true := fun h => hover (Bool.or_eq_true_iff.2 (.inl h))
    rw [(at?_assign_of_not_overlaps ho hover).2]
    exact h.resolve_right hwithin

/-- A run of such writes leaves the value of the source at a path that has it or that one of the
writes covers. -/
lemma at?_assignAll (hw : ∀ w ∈ ws, p.overlaps w.1 = true → w.2 = source.at? w.1.segments)
    (ho : Open p.segments d)
    (h : at? p.segments d = at? p.segments source ∨ ∃ w ∈ ws, p.isWithin w.1 = true) :
    at? p.segments (assignAll ws d) = at? p.segments source := by
  induction ws generalizing d with
  | nil =>
    rcases h with h | ⟨w, hw, -⟩
    · exact h
    · cases hw
  | cons w ws ih =>
    obtain ⟨hhead, htail⟩ := List.forall_mem_cons.1 hw
    refine ih htail (open_write hs hhead ho) ?_
    rcases h with h | ⟨w', hw', hcovers⟩
    · exact .inl (at?_write hs hhead ho (.inl h))
    · rcases List.mem_cons.1 hw' with rfl | hw'
      · exact .inl (at?_write hs hhead ho (.inr hcovers))
      · exact .inr ⟨w', hw', hcovers⟩

end Copies

/-- Writes apart from a path leave its value. -/
lemma at?_assignAll_apart {p : Path} {ws : List (Path × Option Json)}
    (hw : ∀ w ∈ ws, ¬ p.overlaps w.1 = true) {d : Json} (ho : Open p.segments d) :
    at? p.segments (assignAll ws d) = at? p.segments d := by
  induction ws generalizing d with
  | nil => rfl
  | cons w ws ih =>
    obtain ⟨hhead, htail⟩ := List.forall_mem_cons.1 hw
    obtain ⟨ho', hvalue⟩ := at?_assign_of_not_overlaps (v := w.2) ho hhead
    exact (ih htail ho').trans hvalue

/-- Where nothing is but for removals, nothing is found. -/
lemma at?_assignAll_eq_none {ws : List (Path × Option Json)} (hw : ∀ w ∈ ws, w.2 = none)
    {q : List String} {d : Json} (ho : Open q d) (h : at? q d = none) :
    at? q (assignAll ws d) = none := by
  induction ws generalizing d with
  | nil => exact h
  | cons w ws ih =>
    obtain ⟨hhead, htail⟩ := List.forall_mem_cons.1 hw
    have hstep : assign w.1.segments w.2 d = remove w.1.segments d := by
      rw [hhead]
      rfl
    have hrun : assignAll (w :: ws) d = assignAll ws (remove w.1.segments d) :=
      congrArg (assignAll ws) hstep
    rw [hrun]
    exact ih htail (open_remove _ ho) (at?_remove_eq_none _ ho h)

/-- Documents that differ at a path differ above it. -/
lemma at?_ne_above {q r : List String} {d d' : Json} (hd : Open q d) (hd' : Open q d')
    (h : at? (q ++ r) d ≠ at? (q ++ r) d') : at? q d ≠ at? q d' := by
  intro heq
  rw [at?_append hd, at?_append hd', heq] at h
  exact h rfl

end Json

/-! ## Projections -/

namespace Projection

/-- What each field that is dropped leaves at its path. -/
def removals (fields : List (Path × ProjectField)) : List (Path × Option Json) :=
  fields.map fun (name, _) => (name, none)

/-- Does the projection ask for `_id` not to be kept? -/
def dropsId (fields : List (Path × ProjectField)) : Bool :=
  fields.any fun (name, f) => name = idPath && isDrop f

/-- The names of the fields that an inclusion copies. -/
def kept (fields : List (Path × ProjectField)) : List Path :=
  (if dropsId fields then [] else [idPath]) ++
    fields.filterMap fun
      | (name, .keep) => some name
      | _ => none

/-- The fields that an inclusion computes. -/
def computed (fields : List (Path × ProjectField)) : List (Path × Expr) :=
  fields.filterMap fun
    | (name, .computed e) => some (name, e)
    | _ => none

/-- What an inclusion writes, given the values of expressions in a document. -/
def writes (eval : Expr → Json → Option Json) (fields : List (Path × ProjectField)) (d : Json) :
    List (Path × Option Json) :=
  (kept fields).map (fun name => (name, d.at? name.segments)) ++
    (computed fields).map fun c => (c.1, eval c.2 d)

/-- The document that a projection makes of a document. -/
def apply (eval : Expr → Json → Option Json) (fields : List (Path × ProjectField)) (d : Json) :
    Json :=
  match mode fields with
  | .exclusion => Json.assignAll (removals fields) d
  | .inclusion => Json.assignAll (writes eval fields d) (.obj [])

/-- Values of expressions that are those of the document at fields. -/
def ReadsFields (eval : Expr → Json → Option Json) : Prop :=
  ∀ f d, eval (.field f) d = d.at? f.path.segments

/-- Nothing that the projection drops or computes interferes with a path: what an exclusion lists is
not below it, and what an inclusion computes over it or below it is the field of that very name. -/
def Undisturbed (fields : List (Path × ProjectField)) (p : Path) : Prop :=
  match mode fields with
  | .exclusion => ∀ f ∈ fields, f.1.isWithin p = false
  | .inclusion => ∀ c ∈ computed fields, p.overlaps c.1 = true →
      isIdentity c.1 (.computed c.2) = true

variable {fields : List (Path × ProjectField)} {p : Path}

instance : Decidable (Undisturbed fields p) :=
  match h : mode fields with
  | .exclusion => decidable_of_iff (∀ f ∈ fields, f.1.isWithin p = false) (by rw [Undisturbed, h])
  | .inclusion =>
    decidable_of_iff (∀ c ∈ computed fields, p.overlaps c.1 = true →
      isIdentity c.1 (.computed c.2) = true) (by rw [Undisturbed, h])

/-- An accepted projection names no field by the empty path. -/
lemma segments_ne_nil_of_check (h : check fields = .ok ()) :
    ∀ f ∈ fields, f.1.segments ≠ [] := by
  have hnames : Result.Ensures (check fields) fun _ =>
      ∀ f ∈ fields, (Path.ofString f.1.toString).isFieldName = true := by
    unfold check
    refine Result.ensures_ite (Result.ensures_error rfl) ?_
    refine Result.ensures_bind (Result.ensures_forM fun f _ =>
      Result.ensures_checkFieldName f.1.toString) fun _ hnames => ?_
    exact Result.ensures_ite (Result.ensures_error rfl) (Result.ensures_pure hnames)
  intro f hf hnil
  have hname := hnames.value h f hf
  rw [show f.1 = ⟨[]⟩ from congrArg Path.mk hnil] at hname
  exact absurd hname (by decide)

/-! ## What is left alone is as it was -/

lemma apply_exclusion (hmode : mode fields = .exclusion) (eval : Expr → Json → Option Json)
    (d : Json) : apply eval fields d = Json.assignAll (removals fields) d := by
  rw [apply, hmode]

lemma apply_inclusion (hmode : mode fields = .inclusion) (eval : Expr → Json → Option Json)
    (d : Json) : apply eval fields d = Json.assignAll (writes eval fields d) (.obj []) := by
  rw [apply, hmode]

lemma preserves_exclusion_iff (hmode : mode fields = .exclusion) :
    preserves fields p = true ↔ ∀ f ∈ fields, p.isWithin f.1 = false := by
  rw [preserves, hmode]
  simp only [Bool.not_eq_true', List.any_eq_false, Bool.not_eq_true]

lemma eq_field_of_isIdentity {n : Path} {e : Expr} (h : isIdentity n (.computed e) = true) :
    ∃ f : FieldPath, e = .field f ∧ f.path = n := by
  cases e with
  | field f => exact ⟨f, rfl, by simpa [isIdentity, Expr.field?] using h⟩
  | _ => cases h

/-- An entry that lets its field through is one of the writes. -/
lemma exists_write_of_isIdentity {n : Path} {f : ProjectField} (hmem : (n, f) ∈ fields)
    (h : isIdentity n f = true) (eval : Expr → Json → Option Json) (d : Json) :
    ∃ w ∈ writes eval fields d, w.1 = n := by
  cases f with
  | keep =>
    have hkept : n ∈ kept fields :=
      List.mem_append_right _ (List.mem_filterMap.2 ⟨(n, .keep), hmem, rfl⟩)
    exact ⟨_, List.mem_append_left _ (List.mem_map_of_mem hkept), rfl⟩
  | drop => cases h
  | computed e =>
    have hcomputed : (n, e) ∈ computed fields :=
      List.mem_filterMap.2 ⟨(n, .computed e), hmem, rfl⟩
    exact ⟨_, List.mem_append_right _ (List.mem_map_of_mem hcomputed), rfl⟩

lemma isWithin_idPath (h : p.root = "_id") : p.isWithin idPath = true := by
  obtain ⟨_ | ⟨k, ks⟩⟩ := p
  · exact absurd h (by decide)
  · rw [show k = "_id" from h, Path.isWithin_iff]
    exact ⟨ks, rfl⟩

/-- A path that an inclusion is said to preserve is covered by one of the writes. -/
lemma exists_write_of_preserves (hmode : mode fields = .inclusion)
    (h : preserves fields p = true) (eval : Expr → Json → Option Json) (d : Json) :
    ∃ w ∈ writes eval fields d, p.isWithin w.1 = true := by
  rw [preserves, hmode] at h
  change (if _ then true else _) = true at h
  split at h
  · next hid =>
    -- The key is kept without being asked.
    rw [Bool.and_eq_true, decide_eq_true_iff, Bool.not_eq_true', List.any_eq_false] at hid
    obtain ⟨hroot, hnone⟩ := hid
    have hdrops : dropsId fields = false := by
      rw [dropsId, List.any_eq_false]
      intro f hf hdrop
      exact hnone f hf (Bool.and_eq_true_iff.1 hdrop).1
    have hkept : idPath ∈ kept fields := by
      rw [kept, hdrops]
      exact List.mem_cons_self
    exact ⟨_, List.mem_append_left _ (List.mem_map_of_mem hkept), isWithin_idPath hroot⟩
  · obtain ⟨f, hf, hcover⟩ := List.any_eq_true.1 h
    obtain ⟨hwithin, hidentity⟩ := Bool.and_eq_true_iff.1 hcover
    obtain ⟨w, hw, hname⟩ := exists_write_of_isIdentity hf hidentity eval d
    exact ⟨w, hw, hname ▸ hwithin⟩

/-- The writes of an inclusion that overlap an undisturbed path are copies. -/
lemma copies_of_undisturbed (hmode : mode fields = .inclusion) (h : Undisturbed fields p)
    {eval : Expr → Json → Option Json} (heval : ReadsFields eval) (d : Json) :
    ∀ w ∈ writes eval fields d, p.overlaps w.1 = true → w.2 = d.at? w.1.segments := by
  rw [Undisturbed, hmode] at h
  intro w hw hover
  rcases List.mem_append.1 hw with hw | hw
  · obtain ⟨n, -, rfl⟩ := List.mem_map.1 hw
    rfl
  · obtain ⟨c, hc, rfl⟩ := List.mem_map.1 hw
    obtain ⟨f, he, hf⟩ := eq_field_of_isIdentity (h c hc hover)
    calc eval c.2 d = eval (.field f) d := by rw [he]
      _ = d.at? f.path.segments := heval f d
      _ = d.at? c.1.segments := by rw [hf]

/-- A path that a projection is said to preserve and does not disturb keeps its value. -/
lemma at?_apply (hpreserves : preserves fields p = true) (h : Undisturbed fields p)
    {eval : Expr → Json → Option Json} (heval : ReadsFields eval) {d : Json} (hd : d.Plain) :
    (apply eval fields d).at? p.segments = d.at? p.segments := by
  cases hmode : mode fields with
  | exclusion =>
    rw [preserves_exclusion_iff hmode] at hpreserves
    rw [Undisturbed, hmode] at h
    rw [apply_exclusion hmode]
    refine Json.at?_assignAll_apart (fun w hw => ?_) (hd _)
    obtain ⟨f, hf, rfl⟩ := List.mem_map.1 hw
    rw [Path.overlaps, hpreserves f hf, h f hf]
    exact Bool.false_ne_true
  | inclusion =>
    rw [apply_inclusion hmode]
    exact Json.at?_assignAll hd (copies_of_undisturbed hmode h heval d) (Json.open_empty _)
      (.inr (exists_write_of_preserves hmode hpreserves eval d))

/-! ## What interferes shows -/

/-- A path at or below each of two paths that overlap. -/
lemma exists_append_of_overlaps {n : Path} (h : p.overlaps n = true) :
    ∃ r s, p.segments ++ r = n.segments ++ s := by
  rw [Path.overlaps, Bool.or_eq_true, Path.isWithin_iff, Path.isWithin_iff] at h
  rcases h with ⟨s, hs⟩ | ⟨r, hr⟩
  · exact ⟨[], s, (List.append_nil _).trans hs.symm⟩
  · exact ⟨r, [], hr.trans (List.append_nil _).symm⟩

/-- What overlaps a path below another one overlaps that one. -/
lemma overlaps_of_append {n : Path} {r : List String}
    (h : Path.overlaps ⟨p.segments ++ r⟩ n = true) : p.overlaps n = true := by
  rw [Path.overlaps, Bool.or_eq_true, Path.isWithin_iff, Path.isWithin_iff] at h ⊢
  rcases h with h | h
  · exact (List.prefix_or_prefix_of_prefix h (List.prefix_append p.segments r))
  · exact .inr ((List.prefix_append p.segments r).trans h)

/-- An exclusion that does not leave a path alone lists one that overlaps it. -/
lemma exists_overlaps_of_exclusion (hmode : mode fields = .exclusion)
    (h : ¬ (preserves fields p = true ∧ Undisturbed fields p)) :
    ∃ f ∈ fields, p.overlaps f.1 = true := by
  rw [preserves_exclusion_iff hmode, Undisturbed, hmode, not_and_or] at h
  simp only [not_forall, Bool.not_eq_false] at h
  rcases h with ⟨f, hf, hwithin⟩ | ⟨f, hf, hbelow⟩
  · exact ⟨f, hf, Bool.or_eq_true_iff.2 (.inl hwithin)⟩
  · exact ⟨f, hf, Bool.or_eq_true_iff.2 (.inr hbelow)⟩

/-- A document with a truth value at a path, and nothing else. -/
def marked (t : List String) : Json :=
  Json.set t (.bool true) (.obj [])

lemma plain_marked (t : List String) : (marked t).Plain :=
  Json.open_set t (Json.open_bool true) Json.open_empty

/-- Nothing is left at or below a path that is removed. -/
lemma at?_removals {f : Path × ProjectField} (hf : f ∈ fields) (hne : f.1.segments ≠ [])
    (s : List String) {d : Json} (hd : d.Plain) :
    (Json.assignAll (removals fields) d).at? (f.1.segments ++ s) = none := by
  induction fields generalizing d with
  | nil => cases hf
  | cons g fields ih =>
    have hd' : (Json.remove g.1.segments d).Plain := fun ks => Json.open_remove _ (hd ks)
    change (Json.assignAll (removals fields) (Json.remove g.1.segments d)).at? _ = none
    rcases List.mem_cons.1 hf with rfl | hf
    · refine Json.at?_assignAll_eq_none (fun w hw => ?_) (hd' _)
        (Json.at?_remove_append hne (hd _) s)
      obtain ⟨g, -, rfl⟩ := List.mem_map.1 hw
      rfl
    · exact ih hf hd'

lemma plain_removals (fields : List (Path × ProjectField)) {d : Json} (hd : d.Plain) :
    (Json.assignAll (removals fields) d).Plain := by
  refine Json.plain_assignAll (fun w hw v hv => ?_) hd
  obtain ⟨f, -, rfl⟩ := List.mem_map.1 hw
  cases hv

/-- What an exclusion removes at, above or below a path is missed there by some document. -/
lemma exists_changed_of_exclusion (hmode : mode fields = .exclusion) {f : Path × ProjectField}
    (hf : f ∈ fields) (hne : f.1.segments ≠ []) (hover : p.overlaps f.1 = true)
    (eval : Expr → Json → Option Json) :
    ∃ d : Json, d.Plain ∧ (apply eval fields d).at? p.segments ≠ d.at? p.segments := by
  obtain ⟨r, s, ht⟩ := exists_append_of_overlaps hover
  have hplain : (marked (p.segments ++ r)).Plain := plain_marked _
  refine ⟨marked (p.segments ++ r), hplain, ?_⟩
  rw [apply_exclusion hmode]
  refine Json.at?_ne_above (r := r) (plain_removals fields hplain _) (hplain _) ?_
  have hbefore : (marked (p.segments ++ r)).at? (p.segments ++ r) = some (.bool true) :=
    Json.at?_set_self _ _ _
  have hafter := at?_removals hf hne s hplain
  rw [← ht] at hafter
  rw [hbefore, hafter]
  rintro ⟨⟩

/-- Expressions that all have one value, but for fields. -/
def constantly (v : Json) (e : Expr) (d : Json) : Option Json :=
  match e.field? with
  | some f => d.at? f.path.segments
  | none => some v

lemma readsFields_constantly (v : Json) : ReadsFields (constantly v) :=
  fun _ _ => rfl

/-- What is computed at a name and is not the field of that name may differ from it at any path
below. -/
lemma exists_value_of_not_isIdentity {n : Path} {e : Expr}
    (h : isIdentity n (.computed e) = false) (s : List String) :
    ∃ v d : Json, v.Plain ∧ d.Plain ∧ (∃ w, constantly v e d = some w ∧ w.Plain ∧
      w.at? s = some (.bool true)) ∧ d.at? (n.segments ++ s) ≠ some (.bool true) := by
  cases he : e.field? with
  | some f =>
    have hname : f.path ≠ n := by
      intro hname
      simp [isIdentity, he, hname] at h
    have hvalue : (marked (f.path.segments ++ s)).at? f.path.segments >>= Json.at? s =
        some (.bool true) := by
      rw [← Json.at?_append (plain_marked _ _)]
      exact Json.at?_set_self _ _ _
    obtain ⟨w, hw, hws⟩ := Option.bind_eq_some_iff.1 hvalue
    refine ⟨.null, marked (f.path.segments ++ s), Json.open_null, plain_marked _,
      ⟨w, ?_, (plain_marked _).of_at? hw, hws⟩, fun hsame => hname ?_⟩
    · rw [constantly, he]
      exact hw
    · have := Json.eq_of_at?_set_bool hsame
      exact congrArg Path.mk (List.append_cancel_right this).symm
  | none =>
    refine ⟨marked s, .obj [], plain_marked s, Json.open_empty, ⟨marked s, ?_, plain_marked s,
      Json.at?_set_self _ _ _⟩, ?_⟩
    · rw [constantly, he]
    · cases n.segments ++ s <;> rintro ⟨⟩

lemma plain_writes (fields : List (Path × ProjectField)) {v d : Json} (hv : v.Plain)
    (hd : d.Plain) : ∀ w ∈ writes (constantly v) fields d, ∀ u ∈ w.2, u.Plain := by
  intro w hw u hu
  rcases List.mem_append.1 hw with hw | hw
  · obtain ⟨n, -, rfl⟩ := List.mem_map.1 hw
    exact hd.of_at? hu
  · obtain ⟨c, -, rfl⟩ := List.mem_map.1 hw
    change constantly v c.2 d = some u at hu
    rw [constantly] at hu
    split at hu
    · exact hd.of_at? hu
    · cases hu
      exact hv

/-- What an inclusion computes at, above or below a path, and is not the field of that name, shows
there in some document, unless a later field is computed over it. -/
lemma exists_changed_of_inclusion {pre post : List (Path × Expr)} {n : Path} {e : Expr}
    (hcomputed : computed fields = pre ++ (n, e) :: post) (hmode : mode fields = .inclusion)
    (hover : p.overlaps n = true) (hother : isIdentity n (.computed e) = false)
    (hlast : ∀ c ∈ post, p.overlaps c.1 = false) :
    ∃ eval, ReadsFields eval ∧ ∃ d : Json, d.Plain ∧
      (apply eval fields d).at? p.segments ≠ d.at? p.segments := by
  obtain ⟨r, s, ht⟩ := exists_append_of_overlaps hover
  obtain ⟨v, d, hv, hd, ⟨w, hw, hwplain, hws⟩, hbefore⟩ := exists_value_of_not_isIdentity hother s
  refine ⟨constantly v, readsFields_constantly v, d, hd, ?_⟩
  have hwrites := plain_writes fields hv hd
  rw [apply_inclusion hmode]
  refine Json.at?_ne_above (r := r) (Json.plain_assignAll hwrites Json.open_empty _) (hd _) ?_
  obtain ⟨before, hsplit⟩ : ∃ before, writes (constantly v) fields d =
      before ++ (n, some w) :: post.map fun c => (c.1, constantly v c.2 d) := by
    rw [writes, hcomputed, List.map_append, List.map_cons, hw, ← List.append_assoc]
    exact ⟨_, rfl⟩
  have hplain : (Json.assignAll before (.obj [])).Plain := by
    refine Json.plain_assignAll (fun u hu => hwrites u ?_) Json.open_empty
    rw [hsplit]
    exact List.mem_append_left _ hu
  have hrun : Json.assignAll (writes (constantly v) fields d) (.obj []) =
      Json.assignAll (post.map fun c => (c.1, constantly v c.2 d))
        (Json.set n.segments w (Json.assignAll before (.obj []))) := by
    rw [hsplit, Json.assignAll, List.foldl_append]
    rfl
  -- Nothing that is computed later overlaps the path, nor what is below it.
  have hafter : (Json.assignAll (writes (constantly v) fields d) (.obj [])).at? (p.segments ++ r) =
      some (.bool true) := by
    rw [hrun]
    refine (Json.at?_assignAll_apart (p := ⟨p.segments ++ r⟩) (fun u hu hover => ?_)
      (Json.open_set _ hwplain hplain _)).trans ?_
    · obtain ⟨c, hc, rfl⟩ := List.mem_map.1 hu
      exact Bool.eq_false_iff.1 (hlast c hc) (overlaps_of_append hover)
    · exact (congrArg (Json.at? · _) ht).trans ((Json.at?_set_append _ _ _ _).trans hws)
  rw [hafter, ht]
  exact hbefore.symm

/-- Where a projection is said to preserve a path and nothing that it drops or computes interferes
with the path, the value at the path of every document without arrays is that of the document, all
that is below it included, whatever the expressions mean. The second condition is needed. An
exclusion that lists a path below another one changes the value there of some document. So does an
inclusion whose last computed field that overlaps the path is not the field of its own name. -/
theorem preserved_value_kept_where_undisturbed (fields : List (Path × ProjectField))
    (hcheck : check fields = .ok ()) (p : Path) :
    (preserves fields p = true → Undisturbed fields p →
      ∀ eval, ReadsFields eval → ∀ d : Json, d.Plain →
        (apply eval fields d).at? p.segments = d.at? p.segments) ∧
    (mode fields = .exclusion → ¬ (preserves fields p = true ∧ Undisturbed fields p) →
      ∀ eval, ∃ d : Json, d.Plain ∧
        (apply eval fields d).at? p.segments ≠ d.at? p.segments) ∧
    (mode fields = .inclusion → ∀ pre n e post, computed fields = pre ++ (n, e) :: post →
      p.overlaps n = true → isIdentity n (.computed e) = false →
      (∀ c ∈ post, p.overlaps c.1 = false) →
      ∃ eval, ReadsFields eval ∧ ∃ d : Json, d.Plain ∧
        (apply eval fields d).at? p.segments ≠ d.at? p.segments) := by
  refine ⟨fun hpreserves h eval heval d hd => at?_apply hpreserves h heval hd,
    fun hmode hnot eval => ?_, fun hmode pre n e post hcomputed hover hother hlast =>
      exists_changed_of_inclusion hcomputed hmode hover hother hlast⟩
  obtain ⟨f, hf, hover⟩ := exists_overlaps_of_exclusion hmode hnot
  exact exists_changed_of_exclusion hmode hf (segments_ne_nil_of_check hcheck f hf) hover eval

/-- Items as they are, the price once more, and a total. -/
def pricedItems : List (Path × ProjectField) :=
  [(⟨["item"]⟩, .keep),
    (⟨["item", "price"]⟩, .computed (.field { path := ⟨["item", "price"]⟩ })),
    (⟨["total"]⟩, .computed (.arith .multiply
      [.field { path := ⟨["item", "price"]⟩ }, .field { path := ⟨["count"]⟩ }]))]

theorem pricedItems_keeps_item : check pricedItems = .ok () ∧
    preserves pricedItems ⟨["item"]⟩ = true ∧ Undisturbed pricedItems ⟨["item"]⟩ ∧
    ∀ eval, ReadsFields eval → ∀ d : Json, d.Plain →
      (apply eval pricedItems d).at? ["item"] = d.at? ["item"] := by
  have hcheck : check pricedItems = .ok () := by rfl
  have hpreserves : preserves pricedItems ⟨["item"]⟩ = true := by decide
  have hundisturbed : Undisturbed pricedItems ⟨["item"]⟩ := by decide
  exact ⟨hcheck, hpreserves, hundisturbed,
    (preserved_value_kept_where_undisturbed pricedItems hcheck ⟨["item"]⟩).1 hpreserves
      hundisturbed⟩

/-- The field `b` of `a` is dropped. -/
def withoutInner : List (Path × ProjectField) :=
  [(⟨["a", "b"]⟩, .drop)]

/-- The field `a` is kept, and its field `b` is computed. -/
def withOtherInner : List (Path × ProjectField) :=
  [(⟨["a"]⟩, .keep), (⟨["a", "b"]⟩, .computed (.lit (.int 7)))]

/-- Both projections are accepted and said to preserve a path whose value they change. -/
theorem preserves_despite_change :
    (check withoutInner = .ok () ∧ preserves withoutInner ⟨["a"]⟩ = true ∧
      ∀ eval, (apply eval withoutInner (marked ["a", "b"])).at? ["a"] ≠
        (marked ["a", "b"]).at? ["a"]) ∧
    (check withOtherInner = .ok () ∧ preserves withOtherInner ⟨["a", "b"]⟩ = true ∧
      ∀ eval, (∀ d, eval (.lit (.int 7)) d = some (.num (.int 7))) →
        (apply eval withOtherInner (marked ["a", "b"])).at? ["a", "b"] ≠
          (marked ["a", "b"]).at? ["a", "b"]) := by
  refine ⟨⟨rfl, by decide, fun eval h => ?_⟩, rfl, by decide, fun eval hseven h => ?_⟩
  · cases h
  · have hrun : apply eval withOtherInner (marked ["a", "b"]) =
        Json.assign ["a", "b"] (eval (.lit (.int 7)) (marked ["a", "b"])) (marked ["a", "b"]) := rfl
    rw [hrun, hseven] at h
    cases h

end Projection

end PipelineSql
