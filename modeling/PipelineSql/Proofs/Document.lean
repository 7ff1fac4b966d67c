import Mathlib.Tactic.Lemma
import PipelineSql.Json.Reader
import PipelineSql.Path

/-!
# Values in documents

The value at a dotted path of a JSON document, and the document with a value set at a path. Below an
array a position picks one item, and a member is that of every item that has it. A value is set
through objects: what stands in the way and is not an object gives way to one. Setting through an
array, which has no single place for the value, is what `Open` rules out. What is at a path may also
be removed, which leaves the objects above it.
-/

namespace PipelineSql

namespace Json

/-- The value at a path, if there is one. -/
def at? : List String → Json → Option Json
  | [], v => some v
  | k :: ks, .arr items =>
    if isDigits k then items[natOfDigits k.toList]? >>= at? ks
    else some (.arr (items.filterMap fun item => item.get? k >>= at? ks))
  | k :: ks, v => v.get? k >>= at? ks

/-- The values at a path of each item of an array; the value there of what is not an array. -/
def each? : List String → Json → Option Json
  | k :: ks, .arr items => some (.arr (items.filterMap fun item => item.get? k >>= at? ks))
  | ks, v => at? ks v

/-- The document with a value set at a path. -/
def set : List String → Json → Json → Json
  | [], v, _ => v
  | k :: ks, v, d => .obj (insert k (set ks v ((d.get? k).getD (.obj []))) (d.entries?.getD []))

/-- Does the path lead through no array? -/
def Open : List String → Json → Prop
  | [], _ => True
  | k :: ks, d => (∀ items, d ≠ .arr items) ∧ ∀ v ∈ d.get? k, Open ks v

variable {p q : List String} {d v : Json} {k k' : String} {ks : List String}

lemma lookup_cons (w : Json) (es : List (String × Json)) :
    ((k, w) :: es).lookup k' = if k' = k then some w else es.lookup k' := by
  by_cases h : k' = k
  · simp [h]
  · simp [List.lookup_cons, h, beq_eq_false_iff_ne.2 h]

/-- The member that is inserted takes the place of one of its name. -/
lemma lookup_insert (es : List (String × Json)) :
    (insert k v es).lookup k' = if k' = k then some v else es.lookup k' := by
  induction es with
  | nil => rw [insert, lookup_cons]
  | cons e es ih =>
    obtain ⟨key, w⟩ := e
    rw [insert]
    split
    · next hk =>
      subst hk
      rw [lookup_cons, lookup_cons]
      split <;> rfl
    · next hk =>
      rw [lookup_cons, lookup_cons, ih]
      by_cases h : k' = key
      · subst h
        rw [if_pos rfl, if_neg hk, if_pos rfl]
      · rw [if_neg h, if_neg h]

lemma get?_obj (es : List (String × Json)) : (Json.obj es).get? k = es.lookup k :=
  rfl

/-- Only an object has members. -/
lemma get?_eq_lookup : d.get? k = (d.entries?.getD []).lookup k := by
  cases d <;> rfl

lemma get?_set_cons :
    (set (k :: ks) v d).get? k' =
      if k' = k then some (set ks v ((d.get? k).getD (.obj []))) else d.get? k' := by
  rw [set, get?_obj, lookup_insert, ← get?_eq_lookup]

/-- Outside arrays, a path leads through members. -/
lemma at?_cons (h : ∀ items, d ≠ .arr items) : at? (k :: ks) d = d.get? k >>= at? ks := by
  cases d with
  | arr items => exact absurd rfl (h items)
  | _ => rfl

lemma set_cons_ne_arr (items : List Json) : set (k :: ks) v d ≠ .arr items := by
  rw [set]
  exact nofun

lemma at?_set_cons :
    at? (k' :: q) (set (k :: ks) v d) = (set (k :: ks) v d).get? k' >>= at? q :=
  at?_cons set_cons_ne_arr

/-- A path that starts with a name leads to each item of an array anyway. -/
lemma each?_eq_at? (h : isDigits (p.headD "") = false) : each? p v = at? p v := by
  cases p with
  | nil => rfl
  | cons k ks =>
    cases v with
    | arr items =>
      have hk : ¬ isDigits k = true := Bool.eq_false_iff.1 h
      rw [at?, if_neg hk, each?]
    | _ => rfl

/-! ## Paths through objects -/

/-- Without members there is nothing in the way. -/
lemma open_of_get?_eq_none (ha : ∀ items, d ≠ .arr items) (h : ∀ k, d.get? k = none)
    (ks : List String) : Open ks d := by
  cases ks with
  | nil => trivial
  | cons k ks =>
    refine ⟨ha, fun v hv => ?_⟩
    rw [h k] at hv
    cases hv

lemma open_null (ks : List String) : Open ks .null :=
  open_of_get?_eq_none (d := .null) nofun (fun _ => rfl) ks

lemma open_bool (b : Bool) (ks : List String) : Open ks (.bool b) :=
  open_of_get?_eq_none (d := .bool b) nofun (fun _ => rfl) ks

lemma open_empty (ks : List String) : Open ks (.obj []) :=
  open_of_get?_eq_none (d := .obj []) nofun (fun _ => rfl) ks

/-- Where a path leads through no array, it leads through none but those of a value that is set. -/
lemma open_set_at (ho : Open q d) (hv : ∀ r, q = p ++ r → Open r v) : Open q (set p v d) := by
  induction p generalizing q d with
  | nil => exact hv q rfl
  | cons k p ih =>
    cases q with
    | nil => trivial
    | cons k' q =>
      refine ⟨set_cons_ne_arr, fun w hw => ?_⟩
      rw [get?_set_cons] at hw
      split at hw
      · next hk =>
        subst hk
        cases hw
        refine ih ?_ fun r hr => hv r (congrArg (k' :: ·) hr)
        cases hk : d.get? k' with
        | none => exact open_empty q
        | some u => exact ho.2 u hk
      · exact ho.2 w hw

/-- Setting a value makes no arrays but those of the value. -/
lemma open_set (p : List String) (hv : ∀ ks, Open ks v) (hd : ∀ ks, Open ks d) (ks : List String) :
    Open ks (set p v d) :=
  open_set_at (hd ks) fun r _ => hv r

/-! ## Reading what was set -/

/-- What is read below a value that was set is read in the value. -/
lemma at?_set_append (p q : List String) (v d : Json) : at? (p ++ q) (set p v d) = at? q v := by
  induction p generalizing d with
  | nil => rfl
  | cons k ks ih =>
    rw [List.cons_append, at?_set_cons, get?_set_cons, if_pos rfl]
    exact ih _

lemma at?_set_self (p : List String) (v d : Json) : at? p (set p v d) = some v := by
  have h := at?_set_append p [] v d
  rwa [List.append_nil] at h

/-- What is read above a value that was set is an object. -/
lemma at?_set_above (p q : List String) (hq : q ≠ []) (v d : Json) :
    ∃ es, at? p (set (p ++ q) v d) = some (.obj es) := by
  induction p generalizing d with
  | nil =>
    cases q with
    | nil => exact absurd rfl hq
    | cons k ks => exact ⟨_, rfl⟩
  | cons k ks ih =>
    rw [List.cons_append, at?_set_cons, get?_set_cons, if_pos rfl]
    exact ih _

/-- What is read elsewhere is as it was, where either path leads through no array. -/
lemma at?_set_apart (ho : Open p d ∨ Open q d) (hp : ¬ p <+: q) (hq : ¬ q <+: p) :
    at? q (set p v d) = at? q d := by
  induction p generalizing q d with
  | nil => exact absurd List.nil_prefix hp
  | cons k ks ih =>
    cases q with
    | nil => exact absurd List.nil_prefix hq
    | cons k' q =>
      have ha : ∀ items, d ≠ .arr items := ho.elim And.left And.left
      rw [at?_set_cons, get?_set_cons, at?_cons ha]
      by_cases hk : k' = k
      · subst hk
        have hp' : ¬ ks <+: q := fun h => hp (List.cons_prefix_cons.2 ⟨rfl, h⟩)
        have hq' : ¬ q <+: ks := fun h => hq (List.cons_prefix_cons.2 ⟨rfl, h⟩)
        rw [if_pos rfl]
        cases hv : d.get? k' with
        | some w => exact ih (ho.imp (fun h => h.2 w hv) fun h => h.2 w hv) hp' hq'
        | none =>
          -- A member that is not there has nothing below it, before or after.
          have hnone : at? q (.obj []) = none := by
            cases q with
            | nil => exact absurd List.nil_prefix hq'
            | cons => rfl
          exact (ih (d := .obj []) (.inl (open_empty ks)) hp' hq').trans hnone
      · rw [if_neg hk]

/-- A truth value set in an empty document is found at its own path only. -/
lemma eq_of_at?_set_bool {b : Bool} (h : at? q (set p (.bool b) (.obj [])) = some (.bool b)) :
    q = p := by
  by_cases hp : p <+: q
  · obtain ⟨r, rfl⟩ := hp
    rw [at?_set_append] at h
    cases r with
    | nil => exact List.append_nil p
    | cons k ks => cases h
  · by_cases hq : q <+: p
    · obtain ⟨r, rfl⟩ := hq
      cases r with
      | nil => exact (List.append_nil q).symm
      | cons k ks =>
        obtain ⟨es, hes⟩ := at?_set_above q (k :: ks) nofun (.bool b) (.obj [])
        rw [hes] at h
        cases h
    · rw [at?_set_apart (.inl (open_empty p)) hp hq] at h
      cases q with
      | nil => exact absurd List.nil_prefix hq
      | cons k ks => cases h

/-! ## Paths in parts -/

lemma at?_append (ho : Open p d) (q : List String) : at? (p ++ q) d = at? p d >>= at? q := by
  induction p generalizing d with
  | nil => rfl
  | cons k ks ih =>
    rw [List.cons_append, at?_cons ho.1, at?_cons ho.1]
    cases hk : d.get? k with
    | none => rfl
    | some w => exact ih (ho.2 w hk)

lemma open_append : Open (p ++ q) d ↔ Open p d ∧ ∀ w ∈ at? p d, Open q w := by
  induction p generalizing d with
  | nil => simp [Open, at?]
  | cons k ks ih =>
    rw [List.cons_append]
    constructor
    · rintro ⟨ha, hk⟩
      refine ⟨⟨ha, fun u hu => (ih.1 (hk u hu)).1⟩, fun w hw => ?_⟩
      rw [at?_cons ha] at hw
      obtain ⟨u, hu, hw⟩ := Option.bind_eq_some_iff.1 hw
      exact (ih.1 (hk u hu)).2 w hw
    · rintro ⟨⟨ha, hk⟩, hw⟩
      refine ⟨ha, fun u hu => ih.2 ⟨hk u hu, fun w hw' => hw w ?_⟩⟩
      rw [at?_cons ha]
      exact Option.bind_eq_some_iff.2 ⟨u, hu, hw'⟩

/-! ## Removing values -/

/-- The document without what is at a path. -/
def remove : List String → Json → Json
  | [], d => d
  | k :: ks, .obj es =>
    .obj (if ks = [] then es.filter (·.1 != k)
      else (es.lookup k).elim es fun w => insert k (remove ks w) es)
  | _ :: _, d => d

lemma lookup_filter_ne (es : List (String × Json)) :
    (es.filter (·.1 != k)).lookup k' = if k' = k then none else es.lookup k' := by
  induction es with
  | nil => simp
  | cons e es ih =>
    obtain ⟨key, w⟩ := e
    by_cases hkey : key = k
    · subst hkey
      rw [List.filter_cons_of_neg (by simp), ih, lookup_cons]
      split <;> rfl
    · rw [List.filter_cons_of_pos (by simpa using hkey), lookup_cons, lookup_cons, ih]
      by_cases h : k' = key
      · rw [if_pos h, if_pos h, if_neg (h ▸ hkey)]
      · rw [if_neg h, if_neg h]

lemma get?_remove_cons :
    (remove (k :: ks) d).get? k' =
      if k' = k then if ks = [] then none else (d.get? k).map (remove ks) else d.get? k' := by
  cases d with
  | obj es =>
    rw [remove, get?_obj, get?_obj, get?_obj]
    by_cases hks : ks = []
    · rw [if_pos hks, if_pos hks, lookup_filter_ne]
    · rw [if_neg hks, if_neg hks]
      cases hk : es.lookup k with
      | none =>
        by_cases h : k' = k
        · subst h
          rw [if_pos rfl]
          exact hk
        · rw [if_neg h]
          rfl
      | some w =>
        rw [Option.elim_some, lookup_insert]
        rfl
  | _ =>
    -- What is not an object has no members, before or after.
    split
    · split <;> rfl
    · rfl

lemma remove_ne_arr (p : List String) (h : ∀ items, d ≠ .arr items) (items : List Json) :
    remove p d ≠ .arr items := by
  cases p with
  | nil => exact h items
  | cons k ks =>
    cases d with
    | arr items => exact absurd rfl (h items)
    | _ => rintro ⟨⟩

/-- What is removed is not found, nor what was below it. -/
lemma at?_remove_append (hp : p ≠ []) (ho : Open p d) (q : List String) :
    at? (p ++ q) (remove p d) = none := by
  induction p generalizing d with
  | nil => exact absurd rfl hp
  | cons k ks ih =>
    rw [List.cons_append, at?_cons (remove_ne_arr _ ho.1), get?_remove_cons, if_pos rfl]
    by_cases hks : ks = []
    · rw [if_pos hks]
      rfl
    · rw [if_neg hks]
      cases hk : d.get? k with
      | none => rfl
      | some w => exact ih hks (ho.2 w hk)

/-- A path that does not lead through an array stays such when something is removed. -/
lemma open_remove (p : List String) (ho : Open q d) : Open q (remove p d) := by
  induction p generalizing q d with
  | nil => exact ho
  | cons k ks ih =>
    cases q with
    | nil => trivial
    | cons k' q =>
      refine ⟨remove_ne_arr _ ho.1, fun w hw => ?_⟩
      rw [get?_remove_cons] at hw
      by_cases hk : k' = k
      · subst hk
        rw [if_pos rfl] at hw
        split at hw
        · cases hw
        · obtain ⟨u, hu, rfl⟩ := Option.map_eq_some_iff.1 hw
          exact ih (ho.2 u hu)
      · rw [if_neg hk] at hw
        exact ho.2 w hw

/-- Nothing is found after a removal where nothing was before. -/
lemma at?_remove_eq_none (p : List String) (ho : Open q d) (h : at? q d = none) :
    at? q (remove p d) = none := by
  induction p generalizing q d with
  | nil => exact h
  | cons k ks ih =>
    cases q with
    | nil => cases h
    | cons k' q =>
      rw [at?_cons ho.1] at h
      rw [at?_cons (remove_ne_arr _ ho.1), get?_remove_cons]
      split
      · next hk =>
        subst hk
        split
        · rfl
        · cases hw : d.get? k' with
          | none => rfl
          | some w =>
            rw [hw] at h
            exact ih (ho.2 w hw) h
      · exact h

/-- What is read elsewhere is as it was. -/
lemma at?_remove_apart (ho : Open q d) (hp : ¬ p <+: q) (hq : ¬ q <+: p) :
    at? q (remove p d) = at? q d := by
  induction p generalizing q d with
  | nil => rfl
  | cons k ks ih =>
    cases q with
    | nil => exact absurd List.nil_prefix hq
    | cons k' q =>
      rw [at?_cons (remove_ne_arr _ ho.1), get?_remove_cons, at?_cons ho.1]
      by_cases hk : k' = k
      · subst hk
        have hp' : ¬ ks <+: q := fun h => hp (List.cons_prefix_cons.2 ⟨rfl, h⟩)
        have hq' : ¬ q <+: ks := fun h => hq (List.cons_prefix_cons.2 ⟨rfl, h⟩)
        have hks : ks ≠ [] := fun h => hp' (h ▸ List.nil_prefix)
        rw [if_pos rfl, if_neg hks]
        cases hw : d.get? k' with
        | none => rfl
        | some w => exact ih (ho.2 w hw) hp' hq'
      · rw [if_neg hk]

lemma insert_of_lookup {es : List (String × Json)} (h : es.lookup k = some v) :
    insert k v es = es := by
  induction es with
  | nil => cases h
  | cons e es ih =>
    obtain ⟨key, w⟩ := e
    rw [lookup_cons] at h
    rw [insert]
    split at h
    · next hk =>
      cases h
      rw [if_pos hk.symm]
    · next hk => rw [if_neg (Ne.symm hk), ih h]

lemma filter_of_lookup {es : List (String × Json)} (h : es.lookup k = none) :
    es.filter (·.1 != k) = es := by
  rw [List.filter_eq_self]
  intro e he
  have hne : (k == e.1) = false := by simpa using List.lookup_eq_none_iff.1 h e he
  rw [bne, Bool.beq_comm, hne]
  rfl

/-- Setting what is there already changes nothing. -/
lemma set_of_at? (ho : Open p d) (h : at? p d = some v) : set p v d = d := by
  induction p generalizing d with
  | nil => exact (Option.some.inj h).symm
  | cons k ks ih =>
    rw [at?_cons ho.1] at h
    obtain ⟨w, hw, hv⟩ := Option.bind_eq_some_iff.1 h
    cases d with
    | obj es =>
      rw [set, hw, Option.getD_some, ih (ho.2 w hw) hv]
      exact congrArg Json.obj (insert_of_lookup hw)
    | _ => cases hw

/-- Removing what is not there changes nothing. -/
lemma remove_of_at? (ho : Open p d) (h : at? p d = none) : remove p d = d := by
  induction p generalizing d with
  | nil => rfl
  | cons k ks ih =>
    rw [at?_cons ho.1] at h
    cases d with
    | obj es =>
      rw [remove]
      congr 1
      by_cases hks : ks = []
      · subst hks
        rw [if_pos rfl]
        refine filter_of_lookup ?_
        cases hk : es.lookup k with
        | none => rfl
        | some w =>
          rw [get?_obj, hk] at h
          cases h
      · rw [if_neg hks]
        cases hk : es.lookup k with
        | none => rfl
        | some w =>
          rw [get?_obj, hk] at h
          rw [Option.elim_some, ih (ho.2 w hk) h]
          exact insert_of_lookup hk
    | _ => rfl

/-! ## Writing values -/

/-- The document with a value at a path, or with nothing there. -/
def assign (p : List String) (v : Option Json) (d : Json) : Json :=
  v.elim (remove p d) fun w => set p w d

variable {v : Option Json}

lemma at?_assign_apart (ho : Open q d) (hp : ¬ p <+: q) (hq : ¬ q <+: p) :
    at? q (assign p v d) = at? q d := by
  cases v with
  | none => exact at?_remove_apart ho hp hq
  | some w => exact at?_set_apart (.inr ho) hp hq

lemma open_assign (ho : Open q d) (hv : ∀ r, q = p ++ r → ∀ w ∈ v, Open r w) :
    Open q (assign p v d) := by
  cases v with
  | none => exact open_remove p ho
  | some w => exact open_set_at ho fun r hr => hv r hr w rfl

/-- Writing what is there already changes nothing. -/
lemma assign_at?_self (ho : Open p d) : assign p (at? p d) d = d := by
  cases h : at? p d with
  | none => exact remove_of_at? ho h
  | some w => exact set_of_at? ho h

end Json

end PipelineSql
