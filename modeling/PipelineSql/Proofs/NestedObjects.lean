import PipelineSql.Proofs.Coherence
import Mathlib.Data.List.Induction
import Mathlib.Data.List.Nodup

/-!
# Objects nest the members with dotted names

The object of a row is made from entries with dotted names, put one after the other. The same tree
comes from grouping: the entries of an object fall into groups by their segments at its depth, and a
group is the value of the last entry that ends there, or else an object one level deeper.

Main result: the grouping finds a segment in every name that it looks at, comes to an end, and gives
the tree of the entries put in turn. There every object has the keys below it in the order in which
they first occur, each once, and the values are those of the entries that are the last with their
names and have no entry above them.
-/

namespace PipelineSql

variable {key : String}

/-! ## Keys in the order of their first occurrence -/

lemma eraseDups_concat (keys : List String) (key : String) :
    (keys ++ [key]).eraseDups =
      if key ∈ keys then keys.eraseDups else keys.eraseDups ++ [key] := by
  rw [List.eraseDups_append]
  by_cases h : key ∈ keys <;> simp [List.removeAll, h, List.eraseDups_cons]

lemma nodup_eraseDups (keys : List String) : keys.eraseDups.Nodup := by
  induction keys using List.reverseRecOn with
  | nil => exact List.nodup_nil
  | append_singleton keys key ih =>
    rw [eraseDups_concat]
    split
    · exact ih
    · next h =>
      rw [← List.concat_eq_append]
      exact List.Nodup.concat (fun hmem => h (List.mem_eraseDups.1 hmem)) ih

namespace Member

/-- The members under the given keys. -/
def under (keys : List String) (child : String → Member) : List (String × Member) :=
  keys.map fun k => (k, child k)

lemma keys_under (keys : List String) (child : String → Member) :
    (under keys child).map Prod.fst = keys := by
  rw [under, List.map_map]
  exact List.map_id keys

lemma lookup_under (keys : List String) (child : String → Member) (key : String) :
    (under keys child).lookup key = if key ∈ keys then some (child key) else none := by
  induction keys with
  | nil => rfl
  | cons k keys ih =>
    show List.lookup key ((k, child k) :: under keys child) = _
    by_cases h : key = k
    · subst h
      simp
    · rw [List.lookup_cons, beq_false_of_ne h]
      simp [ih, h]

/-- Changing a member changes what is under its key, and nothing else. -/
lemma alter_under {f : Option Member → Member} {keys : List String} {child child' : String → Member}
    (hnodup : keys.Nodup) (hother : ∀ k, k ≠ key → child' k = child k)
    (hkey : child' key = f (if key ∈ keys then some (child key) else none)) :
    alter key f (under keys child) =
      under (if key ∈ keys then keys else keys ++ [key]) child' := by
  induction keys with
  | nil =>
    show [(key, f none)] = [(key, child' key)]
    rw [hkey]
    rfl
  | cons k keys ih =>
    obtain ⟨hfresh, hnodup⟩ := List.nodup_cons.1 hnodup
    show alter key f ((k, child k) :: under keys child) = _
    by_cases h : k = key
    · subst h
      have hrest : under keys child' = under keys child := by
        refine List.map_congr_left fun k' hk' => ?_
        rw [hother k' fun heq => hfresh (heq ▸ hk')]
      rw [alter, if_pos rfl, if_pos List.mem_cons_self]
      show _ = (k, child' k) :: under keys child'
      rw [hrest, hkey, if_pos List.mem_cons_self]
    · have hmem : key ∈ k :: keys ↔ key ∈ keys := by simp [Ne.symm h]
      rw [alter, if_neg h, ih hnodup (by simpa only [hmem] using hkey)]
      simp only [hmem]
      split
      · show _ = (k, child' k) :: under keys child'
        rw [hother k h]
      · show _ = (k, child' k) :: under (keys ++ [key]) child'
        rw [hother k h]

end Member

namespace Entry

open Member

variable {e : Entry} {es : List Entry} {depth : Nat}

/-! ## The tree of entries -/

/-- The members from entries put in turn, by what their names have from a depth on. -/
def members (depth : Nat) (es : List Entry) : List (String × Member) :=
  es.foldl (fun ms e => Member.put e.value e.json (e.name.segments.drop depth) ms) []

/-- The segments of the names at a depth, in the order in which they first occur. -/
def keys (depth : Nat) (es : List Entry) : List String :=
  (es.filterMap fun e => e.name.segments[depth]?).eraseDups

/-- The entries with a segment at a depth. -/
def group (depth : Nat) (key : String) (es : List Entry) : List Entry :=
  es.filter fun e => e.name.segments[depth]? = some key

/-- The last of the entries that end with a segment at a depth. -/
def leaf? (depth : Nat) (key : String) (es : List Entry) : Option Entry :=
  (es.filter fun e => e.name.segments.drop depth = [key]).getLast?

/-- The member under a key: the value of the last entry that ends there, or else an object. -/
def child (depth : Nat) (es : List Entry) (key : String) : Member :=
  match leaf? depth key es with
  | some e => .value e.value e.json
  | none => .object (members (depth + 1) (group depth key es))

lemma members_concat (depth : Nat) (es : List Entry) (e : Entry) :
    members depth (es ++ [e]) =
      Member.put e.value e.json (e.name.segments.drop depth) (members depth es) := by
  rw [members, List.foldl_append]
  rfl

lemma drop_eq_cons_iff {segments rest : List String} : segments.drop depth = key :: rest ↔
    segments[depth]? = some key ∧ segments.drop (depth + 1) = rest := by
  rw [← List.head?_drop, ← List.tail_drop]
  constructor
  · intro h
    rw [h]
    exact ⟨rfl, rfl⟩
  · rintro ⟨hkey, rfl⟩
    exact (List.cons_head?_tail hkey).symm

lemma group_concat (depth : Nat) (key : String) (es : List Entry) (e : Entry) :
    group depth key (es ++ [e]) =
      group depth key es ++ if e.name.segments[depth]? = some key then [e] else [] := by
  rw [group, List.filter_append, List.filter_cons]
  simp [group]

lemma leaf?_concat (depth : Nat) (key : String) (es : List Entry) (e : Entry) :
    leaf? depth key (es ++ [e]) =
      if e.name.segments.drop depth = [key] then some e else leaf? depth key es := by
  unfold leaf?
  rw [List.filter_append]
  by_cases h : e.name.segments.drop depth = [key] <;> simp [h]

/-- An entry does not count for keys other than its own. -/
lemma child_concat_of_ne (h : e.name.segments[depth]? ≠ some key) :
    child depth (es ++ [e]) key = child depth es key := by
  have hleaf : e.name.segments.drop depth ≠ [key] := fun hdrop => h (drop_eq_cons_iff.1 hdrop).1
  rw [child, leaf?_concat, if_neg hleaf, group_concat, if_neg h, List.append_nil]
  rfl

lemma keys_concat_of_none (h : e.name.segments[depth]? = none) :
    keys depth (es ++ [e]) = keys depth es := by
  simp [keys, List.filterMap_append, h]

lemma keys_concat_of_some (h : e.name.segments[depth]? = some key) :
    keys depth (es ++ [e]) =
      if key ∈ keys depth es then keys depth es else keys depth es ++ [key] := by
  simp [keys, List.filterMap_append, h, eraseDups_concat, List.mem_eraseDups]

lemma mem_keys : key ∈ keys depth es ↔ ∃ e ∈ es, e.name.segments[depth]? = some key := by
  rw [keys, List.mem_eraseDups, List.mem_filterMap]

lemma group_eq_nil (h : key ∉ keys depth es) : group depth key es = [] := by
  refine List.filter_eq_nil_iff.2 fun e he hkey => ?_
  exact h (mem_keys.2 ⟨e, he, of_decide_eq_true hkey⟩)

lemma leaf?_eq_none (h : key ∉ keys depth es) : leaf? depth key es = none := by
  rw [leaf?, List.getLast?_eq_none_iff, List.filter_eq_nil_iff]
  intro e he hleaf
  exact h (mem_keys.2 ⟨e, he, (drop_eq_cons_iff.1 (of_decide_eq_true hleaf)).1⟩)

/-- The entries of an object fall into groups by their segments at its depth. -/
lemma members_eq (depth : Nat) (es : List Entry) :
    members depth es = under (keys depth es) (child depth es) := by
  -- An entry that is put last changes the group of its segment, and no other.
  induction es using List.reverseRecOn generalizing depth with
  | nil => rfl
  | append_singleton es e ih =>
    rw [members_concat, ih]
    cases hdrop : e.name.segments.drop depth with
    | nil =>
      have hnone : e.name.segments[depth]? = none := by rw [← List.head?_drop, hdrop]; rfl
      rw [Member.put, keys_concat_of_none hnone]
      refine List.map_congr_left fun key _ => ?_
      rw [child_concat_of_ne (by simp [hnone])]
    | cons key rest =>
      obtain ⟨hkey, hrest⟩ := drop_eq_cons_iff.1 hdrop
      have hother : ∀ k, k ≠ key → child depth (es ++ [e]) k = child depth es k := by
        intro k hk
        exact child_concat_of_ne fun h => hk (Option.some.inj (h.symm.trans hkey))
      rw [keys_concat_of_some hkey]
      cases rest with
      | nil =>
        rw [Member.put]
        refine alter_under (nodup_eraseDups _) hother ?_
        rw [child, leaf?_concat, if_pos hdrop]
      | cons next rest =>
        rw [Member.put]
        refine alter_under (nodup_eraseDups _) hother ?_
        have hgroup : group depth key (es ++ [e]) = group depth key es ++ [e] := by
          rw [group_concat, if_pos hkey]
        have hleaf : leaf? depth key (es ++ [e]) = leaf? depth key es := by
          rw [leaf?_concat, if_neg (by simp [hdrop])]
        rw [child, hleaf, hgroup, members_concat, hrest]
        by_cases hmem : key ∈ keys depth es
        · rw [if_pos hmem, child]
          cases leaf? depth key es <;> rfl
        · rw [if_neg hmem, leaf?_eq_none hmem, group_eq_nil hmem]
          rfl

/-! ## Grouping -/

/-- The most segments that a name has. -/
def longest (es : List Entry) : Nat :=
  es.foldr (fun e n => max e.name.segments.length n) 0

lemma length_le_longest (h : e ∈ es) : e.name.segments.length ≤ longest es := by
  induction es with
  | nil => cases h
  | cons e' es ih =>
    rcases List.mem_cons.1 h with rfl | h
    · exact Nat.le_max_left _ _
    · exact Nat.le_trans (ih h) (Nat.le_max_right _ _)

lemma longest_le {n : Nat} (h : ∀ e ∈ es, e.name.segments.length ≤ n) : longest es ≤ n := by
  induction es with
  | nil => exact Nat.zero_le n
  | cons e es ih =>
    obtain ⟨he, hes⟩ := List.forall_mem_cons.1 h
    exact Nat.max_le.2 ⟨he, ih hes⟩

/-- A group has one segment less to go. -/
lemma longest_group_lt (h : key ∈ keys depth es) :
    longest (group depth key es) - (depth + 1) < longest es - depth := by
  obtain ⟨e, he, hkey⟩ := mem_keys.1 h
  have hdepth : depth < longest es :=
    Nat.lt_of_lt_of_le (List.getElem?_eq_some_iff.1 hkey).1 (length_le_longest he)
  have hgroup : longest (group depth key es) ≤ longest es :=
    longest_le fun e he => length_le_longest (List.mem_filter.1 he).1
  omega

/-- The members of an object by grouping: the entries that share their segments at a depth make the
value of the last that ends there, or else an object. There are no members if a name has no segment
at the depth. -/
def grouped (depth : Nat) (es : List Entry) : Option (List (String × Member)) :=
  if es.all fun e => depth < e.name.segments.length then
    (keys depth es).attach.mapM fun key =>
      let group := group depth key.1 es
      match (group.filter fun e => e.name.segments.length = depth + 1).getLast? with
      | some e => some (key.1, .value e.value e.json)
      | none => (grouped (depth + 1) group).map fun below => (key.1, .object below)
  else none
termination_by longest es - depth
decreasing_by exact longest_group_lt key.2

lemma mapM_attach {α β : Type} {l : List α} {f : { a // a ∈ l } → Option β} {g : α → β}
    (h : ∀ a, f a = some (g a.1)) : l.attach.mapM f = some (l.map g) := by
  have hf : f = fun a => pure (g a.1) := funext h
  have hg : l.attach.map (fun a => g a.1) = l.map g := by
    conv_rhs => rw [← List.attach_map_subtype_val l, List.map_map]
    rfl
  rw [hf, List.mapM_pure, hg]
  rfl

lemma drop_eq_singleton_iff {segments : List String} : segments.drop depth = [key] ↔
    segments[depth]? = some key ∧ segments.length = depth + 1 := by
  rw [drop_eq_cons_iff, List.drop_eq_nil_iff]
  refine and_congr_right fun hkey => ?_
  have hdepth := (List.getElem?_eq_some_iff.1 hkey).1
  omega

lemma leaf?_eq (depth : Nat) (key : String) (es : List Entry) : leaf? depth key es =
    ((group depth key es).filter fun e => e.name.segments.length = depth + 1).getLast? := by
  rw [leaf?, group, List.filter_filter]
  refine congrArg List.getLast? (List.filter_congr fun e _ => ?_)
  simp only [drop_eq_singleton_iff, Bool.decide_and, Bool.and_comm]

/-- Grouping looks at no segment that is not there, and has the members of the entries put in
turn. -/
lemma grouped_eq (h : ∀ e ∈ es, depth < e.name.segments.length) :
    grouped depth es = some (members depth es) := by
  -- A group is only looked at further if none of its entries ends at the depth, and so all of them
  -- have a segment one deeper.
  fun_induction grouped depth es with
  | case1 depth es hall ih =>
    rw [members_eq]
    refine mapM_attach fun key => ?_
    simp only [← leaf?_eq, child]
    cases hleaf : leaf? depth key.1 es with
    | some e => rfl
    | none =>
      rw [ih key]
      · rfl
      · intro e he
        obtain ⟨hmem, hkey⟩ := List.mem_filter.1 he
        have hlength : e.name.segments.length ≠ depth + 1 := by
          intro hlength
          rw [leaf?, List.getLast?_eq_none_iff, List.filter_eq_nil_iff] at hleaf
          exact hleaf e hmem (decide_eq_true
            (drop_eq_singleton_iff.2 ⟨of_decide_eq_true hkey, hlength⟩))
        exact Nat.lt_of_le_of_ne (h e hmem) hlength.symm
  | case2 depth es hall => exact absurd (by simpa using h) hall

end Entry

/-! ## Places in the tree -/

/-- The member at a path. -/
def Member.at? : List String → Member → Option Member
  | [], m => some m
  | key :: rest, .object ms => (ms.lookup key).bind (at? rest)
  | _ :: _, .value _ _ => none

namespace Entry

variable {e : Entry} {es : List Entry} {depth : Nat} {rest path : List String}

/-- A path goes through the group of its first segment. -/
lemma at?_cons_eq_some {m : Member} :
    (Member.object (members depth es)).at? (key :: rest) = some m ↔
      key ∈ keys depth es ∧ (child depth es key).at? rest = some m := by
  rw [Member.at?, members_eq, Member.lookup_under]
  by_cases h : key ∈ keys depth es <;> simp [h]

lemma leaf?_eq_none_iff :
    leaf? depth key es = none ↔ ∀ e ∈ es, e.name.segments.drop depth ≠ [key] := by
  simp [leaf?]

/-- The entry is the last that ends at a path from a depth on, and no entry ends above. -/
structure Shows (depth : Nat) (es : List Entry) (path : List String) (e : Entry) : Prop where
  last : (es.filter fun e => e.name.segments.drop depth = path).getLast? = some e
  top : ∀ e' ∈ es, e'.name.segments.drop depth <+: path →
    e'.name.segments.drop depth = [] ∨ e'.name.segments.drop depth = path

lemma filter_group (depth : Nat) (key : String) (rest : List String) (es : List Entry) :
    ((group depth key es).filter fun e => e.name.segments.drop (depth + 1) = rest) =
      es.filter fun e => e.name.segments.drop depth = key :: rest := by
  rw [group, List.filter_filter]
  refine List.filter_congr fun e _ => ?_
  simp only [drop_eq_cons_iff, Bool.decide_and, Bool.and_comm]

lemma Shows.mem (h : Shows depth es path e) : e ∈ es ∧ e.name.segments.drop depth = path := by
  obtain ⟨hmem, hdrop⟩ := List.mem_filter.1 (List.mem_of_getLast? h.last)
  exact ⟨hmem, of_decide_eq_true hdrop⟩

lemma Shows.mem_keys (h : Shows depth es (key :: rest) e) : key ∈ keys depth es :=
  Entry.mem_keys.2 ⟨e, h.mem.1, (drop_eq_cons_iff.1 h.mem.2).1⟩

/-- The last entry that ends with a segment is shown there, and hides what is below. -/
lemma shows_cons_of_leaf {leaf : Entry} (hleaf : leaf? depth key es = some leaf) :
    Shows depth es (key :: rest) e ↔ rest = [] ∧ e = leaf := by
  obtain ⟨hmem, hdrop⟩ := List.mem_filter.1 (List.mem_of_getLast? hleaf)
  replace hdrop := of_decide_eq_true hdrop
  constructor
  · intro h
    have hprefix : leaf.name.segments.drop depth <+: key :: rest := by
      rw [hdrop]
      exact List.cons_prefix_cons.2 ⟨rfl, List.nil_prefix⟩
    rcases h.top leaf hmem hprefix with hnil | hpath
    · rw [hdrop] at hnil
      cases hnil
    · obtain rfl : [] = rest := (List.cons.inj (hdrop.symm.trans hpath)).2
      exact ⟨rfl, Option.some.inj (h.last.symm.trans hleaf)⟩
  · rintro ⟨rfl, rfl⟩
    refine ⟨hleaf, fun e' _ hprefix => ?_⟩
    rcases List.prefix_cons_iff.1 hprefix with hnil | ⟨t, ht, hnil⟩
    · exact .inl hnil
    · rw [List.prefix_nil.1 hnil] at ht
      exact .inr ht

/-- Where no entry ends with the first segment of a path, its group shows the same. -/
lemma shows_cons_iff (hleaf : leaf? depth key es = none) :
    Shows depth es (key :: rest) e ↔ Shows (depth + 1) (group depth key es) rest e := by
  rw [leaf?_eq_none_iff] at hleaf
  constructor
  · intro h
    refine ⟨by rw [filter_group]; exact h.last, fun e' he' hprefix => ?_⟩
    obtain ⟨hmem, hkey⟩ := List.mem_filter.1 he'
    have hdrop := drop_eq_cons_iff.2 ⟨of_decide_eq_true hkey, rfl⟩
    rcases h.top e' hmem (by rw [hdrop]; exact List.cons_prefix_cons.2 ⟨rfl, hprefix⟩) with
      hnil | hpath
    · rw [hdrop] at hnil
      cases hnil
    · exact .inr (drop_eq_cons_iff.1 hpath).2
  · intro h
    refine ⟨by rw [← filter_group]; exact h.last, fun e' he' hprefix => ?_⟩
    cases hdrop : e'.name.segments.drop depth with
    | nil => exact .inl rfl
    | cons k below =>
      rw [hdrop] at hprefix
      obtain ⟨rfl, hbelow⟩ := List.cons_prefix_cons.1 hprefix
      obtain ⟨hkey, hdrop'⟩ := drop_eq_cons_iff.1 hdrop
      have hgroup : e' ∈ group depth k es := List.mem_filter.2 ⟨he', decide_eq_true hkey⟩
      rcases h.top e' hgroup (by rw [hdrop']; exact hbelow) with hnil | hpath
      · exact absurd (drop_eq_cons_iff.2 ⟨hkey, hnil⟩) (hleaf e' he')
      · rw [← hdrop', hpath]
        exact .inr rfl

/-- The values of the tree are those of the entries that are the last with their names and have no
entry above them. -/
lemma at?_eq_value_iff {f : Fragment} {json : Bool} (hpath : path ≠ []) :
    (Member.object (members depth es)).at? path = some (.value f json) ↔
      ∃ e, Shows depth es path e ∧ e.value = f ∧ e.json = json := by
  induction path generalizing depth es with
  | nil => exact absurd rfl hpath
  | cons key rest ih =>
    rw [at?_cons_eq_some, child]
    -- A value under the first segment hides what is below; without one the path goes on in its
    -- group, where the depth is one more.
    cases hleaf : leaf? depth key es with
    | some leaf =>
      have hmem : key ∈ keys depth es := by
        by_contra hkey
        rw [leaf?_eq_none hkey] at hleaf
        cases hleaf
      simp only [shows_cons_of_leaf hleaf, hmem, true_and]
      cases rest with
      | nil => simp [Member.at?]
      | cons next rest => simp [Member.at?]
    | none =>
      cases rest with
      | nil =>
        refine ⟨fun h => (by cases h.2), ?_⟩
        rintro ⟨e, hshows, -⟩
        cases hshows.last.symm.trans hleaf
      | cons next rest =>
        have hnext : (Member.object (members (depth + 1) (group depth key es))).at?
            (next :: rest) = some (.value f json) ↔ _ := ih (List.cons_ne_nil _ _)
        constructor
        · rintro ⟨-, h⟩
          obtain ⟨e, hshows, hvalue⟩ := hnext.1 h
          exact ⟨e, (shows_cons_iff hleaf).2 hshows, hvalue⟩
        · rintro ⟨e, hshows, hvalue⟩
          exact ⟨hshows.mem_keys, hnext.2 ⟨e, (shows_cons_iff hleaf).1 hshows, hvalue⟩⟩

lemma cons_prefix_drop_iff {segments : List String} : key :: rest <+: segments.drop depth ↔
    segments[depth]? = some key ∧ rest <+: segments.drop (depth + 1) := by
  constructor
  · rintro ⟨tail, htail⟩
    obtain ⟨hkey, hdrop⟩ := drop_eq_cons_iff.1 htail.symm
    exact ⟨hkey, tail, hdrop.symm⟩
  · rintro ⟨hkey, tail, htail⟩
    exact ⟨tail, (drop_eq_cons_iff.2 ⟨hkey, htail.symm⟩).symm⟩

/-- An object of the tree is made of the entries with names below its path. -/
lemma eq_members_of_at? {ms : List (String × Member)}
    (h : (Member.object (members depth es)).at? path = some (.object ms)) :
    ms = members (depth + path.length)
      (es.filter fun e => path <+: e.name.segments.drop depth) := by
  induction path generalizing depth es with
  | nil =>
    rw [Member.at?] at h
    cases h
    simp
  | cons key rest ih =>
    rw [at?_cons_eq_some, child] at h
    cases hleaf : leaf? depth key es with
    | some leaf =>
      rw [hleaf] at h
      cases rest <;> cases h.2
    | none =>
      rw [hleaf] at h
      rw [ih h.2, group, List.filter_filter, List.length_cons, Nat.add_right_comm, Nat.add_assoc]
      refine congrArg _ (List.filter_congr fun e _ => ?_)
      simp only [cons_prefix_drop_iff, Bool.decide_and, Bool.and_comm]

lemma keys_members (depth : Nat) (es : List Entry) :
    (members depth es).map Prod.fst = keys depth es := by
  rw [members_eq, Member.keys_under]

end Entry

/-- The segment with which a path goes on below a name. -/
lemma Path.head?_below? (p n : Path) : (p.below? n).bind List.head? =
    if n.segments <+: p.segments then p.segments[n.segments.length]? else none := by
  unfold below?
  cases hrest : n.segments.isPrefixOf? p.segments with
  | none =>
    rw [if_neg]
    · rfl
    · rintro ⟨rest, happend⟩
      rw [List.isPrefixOf?_eq_some_iff_append_eq.2 happend] at hrest
      cases hrest
  | some rest =>
    have happend := List.isPrefixOf?_eq_some_iff_append_eq.1 hrest
    rw [if_pos ⟨rest, happend⟩, ← happend, List.getElem?_append_right (Nat.le_refl _), Nat.sub_self]
    cases rest <;> rfl

namespace Entry

/-- The keys below a path are the segments with which names go on there. -/
lemma keys_filter (entries : List Entry) (p : Path) :
    keys p.segments.length (entries.filter fun e => p.segments <+: e.name.segments) =
      (entries.filterMap fun e => (e.name.below? p).bind List.head?).eraseDups := by
  rw [keys, List.filterMap_filter]
  refine congrArg _ (List.filterMap_congr fun e _ => ?_)
  rw [Path.head?_below?]
  simp only [decide_eq_true_eq]

/-- Is the entry the last with its name, with no entry above? -/
structure Visible (entries : List Entry) (e : Entry) : Prop where
  last : (entries.filter fun e' => e'.name = e.name).getLast? = some e
  top : ∀ e' ∈ entries, e.name.isWithin e'.name → e'.name = e.name

lemma visible_iff {entries : List Entry} (hnames : ∀ e ∈ entries, e.name.segments ≠ []) :
    Visible entries e ↔ Shows 0 entries e.name.segments e := by
  have hname (n : Path) : n = e.name ↔ n.segments = e.name.segments :=
    ⟨congrArg Path.segments, congrArg Path.mk⟩
  constructor
  · intro h
    refine ⟨?_, fun e' he' hprefix => ?_⟩
    · simpa only [hname, List.drop_zero] using h.last
    · exact .inr ((hname e'.name).1 (h.top e' he' (Path.isWithin_iff.2 hprefix)))
  · intro h
    refine ⟨?_, fun e' he' hwithin => ?_⟩
    · simpa only [hname, List.drop_zero] using h.last
    · rcases h.top e' he' (Path.isWithin_iff.1 hwithin) with hnil | hpath
      · exact absurd hnil (hnames e' he')
      · exact (hname e'.name).2 hpath

lemma at?_eq_value_iff_visible {entries : List Entry}
    (hnames : ∀ e ∈ entries, e.name.segments ≠ []) (p : Path) (f : Fragment) (json : Bool) :
    (Member.object (members 0 entries)).at? p.segments = some (.value f json) ↔
      ∃ e, Visible entries e ∧ e.name = p ∧ e.value = f ∧ e.json = json := by
  by_cases hp : p.segments = []
  · rw [hp, Member.at?]
    refine ⟨fun h => (by cases h), ?_⟩
    rintro ⟨e, hvisible, rfl, -⟩
    exact absurd hp (hnames e ((visible_iff hnames).1 hvisible).mem.1)
  · rw [at?_eq_value_iff hp]
    constructor
    · rintro ⟨e, hshows, hvalue⟩
      obtain rfl : e.name = p := congrArg Path.mk hshows.mem.2
      exact ⟨e, (visible_iff hnames).2 hshows, rfl, hvalue⟩
    · rintro ⟨e, hvisible, rfl, hvalue⟩
      exact ⟨e, (visible_iff hnames).1 hvisible, hvalue⟩

end Entry

namespace Member

lemma fragments_eq_map (ms : List (String × Member)) :
    fragments ms = ms.map fun m => Fragment.string m.1 ++ " VALUE " ++ m.2.fragment := by
  induction ms with
  | nil => rfl
  | cons m ms ih => rw [fragments, ih, List.map_cons]

end Member

/-- The object of entries with dotted names is a tree of objects, which grouping the entries by
their segments gives as well. The keys of an object are those with which names go on at its path,
each once and in the order in which they first occur. The values are those of the entries that are
the last with their names and have no entry above them, each at the path of its name. -/
theorem dotted_names_nest (entries : List Entry) (hnames : ∀ e ∈ entries, e.name.segments ≠ []) :
    ∃ members, Entry.grouped 0 entries = some members ∧
      Entry.object entries = (Member.object members).fragment ∧
      (∀ ms, (Member.object ms).fragment = Fragment.call "JSON_OBJECT"
        (ms.map fun m => Fragment.string m.1 ++ " VALUE " ++ m.2.fragment)) ∧
      (∀ f json, (Member.value f json).fragment =
        if json then f ++ Fragment.text " FORMAT JSON" else f) ∧
      (∀ (p : Path) (ms : List (String × Member)),
        (Member.object members).at? p.segments = some (.object ms) →
          (ms.map Prod.fst).Nodup ∧ ms.map Prod.fst =
            (entries.filterMap fun e => (e.name.below? p).bind List.head?).eraseDups) ∧
      ∀ (p : Path) (f : Fragment) (json : Bool),
        (Member.object members).at? p.segments = some (.value f json) ↔
          ∃ e, Entry.Visible entries e ∧ e.name = p ∧ e.value = f ∧ e.json = json := by
  refine ⟨Entry.members 0 entries, ?_, rfl, ?_, fun _ _ => rfl, ?_, ?_⟩
  · exact Entry.grouped_eq fun e he => List.length_pos_iff.2 (hnames e he)
  · intro ms
    rw [Member.fragment, Member.fragments_eq_map]
  · intro p ms hat
    have hkeys : ms.map Prod.fst =
        (entries.filterMap fun e => (e.name.below? p).bind List.head?).eraseDups := by
      rw [Entry.eq_members_of_at? hat, Entry.keys_members, Nat.zero_add]
      exact Entry.keys_filter entries p
    rw [hkeys]
    exact ⟨nodup_eraseDups _, rfl⟩
  · exact Entry.at?_eq_value_iff_visible hnames

/-- Entries of which two have one name and one is below another. -/
def dottedEntries : List Entry :=
  [{ name := ⟨["a", "b"]⟩, value := "x", json := false },
    { name := ⟨["c"]⟩, value := "y", json := false },
    { name := ⟨["a", "d", "e"]⟩, value := "z", json := true },
    { name := ⟨["c", "f"]⟩, value := "u", json := false },
    { name := ⟨["a", "b"]⟩, value := "v", json := false }]

/-- Of the values for `a.b` the last is shown, and `c` hides `c.f`. -/
theorem dottedEntries_nest : (∀ e ∈ dottedEntries, e.name.segments ≠ []) ∧
    ∃ members, Entry.grouped 0 dottedEntries = some members ∧
      Entry.object dottedEntries = (Member.object members).fragment ∧
      (Member.object members).at? ["a", "b"] = some (.value "v" false) ∧
      (Member.object members).at? ["a", "d", "e"] = some (.value "z" true) ∧
      (Member.object members).at? ["c"] = some (.value "y" false) := by
  have hnames : ∀ e ∈ dottedEntries, e.name.segments ≠ [] := by
    simp [dottedEntries]
  have hvisible (i : Fin 5) (hi : i = 1 ∨ i = 2 ∨ i = 4) :
      Entry.Visible dottedEntries (dottedEntries.get i) := by
    rcases hi with rfl | rfl | rfl <;> exact ⟨rfl, by decide⟩
  obtain ⟨members, hgrouped, hobject, -, -, -, hvalues⟩ := dotted_names_nest dottedEntries hnames
  refine ⟨hnames, members, hgrouped, hobject, ?_, ?_, ?_⟩
  · exact (hvalues ⟨["a", "b"]⟩ _ _).2 ⟨_, hvisible 4 (by decide), rfl, rfl, rfl⟩
  · exact (hvalues ⟨["a", "d", "e"]⟩ _ _).2 ⟨_, hvisible 2 (by decide), rfl, rfl, rfl⟩
  · exact (hvalues ⟨["c"]⟩ _ _).2 ⟨_, hvisible 1 (by decide), rfl, rfl, rfl⟩

end PipelineSql
