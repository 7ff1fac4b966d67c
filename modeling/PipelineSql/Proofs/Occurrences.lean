import PipelineSql.Proofs.Binding

/-!
# Text that is written twice

A query may hold one text at two places, in its select list and in its `GROUP BY`. Placeholders are
numbered in the order of the whole text, so that the two are numbered alike exactly if they hold no
placeholder. A selected value stands in the select list, and a value of an object in the text of the
object, provided that no other value takes its place.
-/

namespace PipelineSql

/-! ## Numbered text -/

namespace Token

variable {ts us : List Token}

lemma numberFrom_append (values : List Literal) (next : Nat) (ts us : List Token) :
    (numberFrom values next (ts ++ us)).1 =
      (numberFrom values next ts).1 ++ (numberFrom values (next + (slots ts).length) us).1 := by
  induction ts generalizing next with
  | nil => rfl
  | cons t ts ih =>
    cases t with
    | bind slot =>
      have hnext : next + (slots (.bind slot :: ts)).length = next + 1 + (slots ts).length :=
        Nat.add_right_comm next (slots ts).length 1
      rw [hnext]
      exact congrArg (List.cons _) (ih (next + 1))
    | _ => exact congrArg (List.cons _) (ih next)

/-- Numbering goes token by token. -/
lemma length_numberFrom (values : List Literal) (next : Nat) (ts : List Token) :
    (numberFrom values next ts).1.length = ts.length := by
  induction ts generalizing next with
  | nil => rfl
  | cons t ts ih =>
    cases t with
    | bind slot => exact congrArg (· + 1) (ih (next + 1))
    | _ => exact congrArg (· + 1) (ih next)

/-- Tokens numbered from different numbers on are the same only without placeholders. -/
lemma numberFrom_fst_eq_iff {values : List Literal} {i j : Nat} (hij : i ≠ j) :
    (numberFrom values i ts).1 = (numberFrom values j ts).1 ↔ slots ts = [] := by
  constructor
  · intro h
    induction ts with
    | nil => rfl
    | cons t ts ih =>
      cases t with
      | bind slot => exact absurd (Token.bind.inj (List.cons.inj h).1) hij
      | _ => exact ih (List.cons.inj h).2
  · intro h
    rw [numberFrom_eq_self values i h, numberFrom_eq_self values j h]

/-- Tokens that stand in two parts of a text, `front` and `back`. Wherever the numbers of the text
begin, the tokens are numbered alike at both places exactly if no placeholder is among them. -/
def AlikeIffUnbound (ts before front between back after : List Token) : Prop :=
  ∃ l r l' r', front = l ++ ts ++ r ∧ back = l' ++ ts ++ r' ∧
    ∀ values next, ∃ t₁ first t₂ second t₃,
      (numberFrom values next (before ++ front ++ between ++ back ++ after)).1 =
        t₁ ++ first ++ t₂ ++ second ++ t₃ ∧
      t₁.length = (before ++ l).length ∧ first.length = ts.length ∧
      t₂.length = (r ++ between ++ l').length ∧ second.length = ts.length ∧
      (first = second ↔ slots ts = [])

lemma alikeIffUnbound {front back : List Token} (before between after : List Token)
    (hfront : ts <:+: front) (hback : ts <:+: back) :
    AlikeIffUnbound ts before front between back after := by
  obtain ⟨l, r, rfl⟩ := hfront
  obtain ⟨l', r', rfl⟩ := hback
  refine ⟨l, r, l', r', rfl, rfl, fun values next => ?_⟩
  have htext : before ++ (l ++ ts ++ r) ++ between ++ (l' ++ ts ++ r') ++ after =
      before ++ l ++ ts ++ (r ++ between ++ l') ++ ts ++ (r' ++ after) := by
    simp only [List.append_assoc]
  rw [htext, numberFrom_append _ _ _ (r' ++ after), numberFrom_append _ _ _ ts,
    numberFrom_append _ _ _ (r ++ between ++ l'), numberFrom_append _ _ _ ts]
  refine ⟨_, _, _, _, _, rfl, length_numberFrom _ _ _, length_numberFrom _ _ _,
    length_numberFrom _ _ _, length_numberFrom _ _ _, ?_⟩
  by_cases hts : slots ts = []
  · simp only [hts, numberFrom_eq_self values _ hts]
  · refine numberFrom_fst_eq_iff ?_
    have hpos := List.length_pos_iff.2 hts
    simp only [slots_append, List.length_append]
    omega

end Token

/-! ## Places in the text of a query -/

namespace Query

lemma infix_joined (separator : String) {fs : List Fragment} {f : Fragment} (h : f ∈ fs) :
    f.tokens <:+: (Fragment.joined separator fs).tokens := by
  induction fs with
  | nil => cases h
  | cons g fs ih =>
    cases fs with
    | nil =>
      obtain rfl : f = g := List.mem_singleton.1 h
      exact List.infix_rfl
    | cons k fs =>
      rw [Fragment.joined, Fragment.tokens_append, Fragment.tokens_append, List.append_assoc]
      rcases List.mem_cons.1 h with rfl | h
      · exact (List.prefix_append _ _).isInfix
      · refine (ih h).trans ?_
        rw [← List.append_assoc]
        exact (List.suffix_append _ _).isInfix

lemma infix_item (i : SelectItem) : i.value.tokens <:+: i.fragment.tokens := by
  unfold SelectItem.fragment
  split
  · exact List.infix_rfl
  · rw [Fragment.tokens_append, Fragment.tokens_append, List.append_assoc]
    exact (List.prefix_append _ _).isInfix

lemma infix_selectList {items : List SelectItem} {i : SelectItem} (h : i ∈ items) :
    i.value.tokens <:+: (selectList items).tokens := by
  induction items with
  | nil => cases h
  | cons j items ih =>
    cases items with
    | nil =>
      rw [List.mem_singleton.1 h, selectList, Fragment.tokens_append]
      exact (infix_item j).trans (List.suffix_append _ _).isInfix
    | cons k items =>
      rw [selectList, Fragment.tokens_append]
      rcases List.mem_cons.1 h with rfl | h
      · refine (infix_item i).trans (.trans ?_ (List.prefix_append _ _).isInfix)
        rw [Fragment.tokens_append, Fragment.tokens_append (_ ++ _) i.fragment]
        exact (List.suffix_append _ _).isInfix.trans (List.prefix_append _ _).isInfix
      · exact (ih h).trans (List.suffix_append _ _).isInfix

lemma infix_listClause (keyword : String) {fs : List Fragment} {f : Fragment} (h : f ∈ fs) :
    f.tokens <:+: (listClause keyword fs).tokens := by
  have hne : fs.isEmpty = false := by
    cases fs with
    | nil => cases h
    | cons => rfl
  rw [listClause, if_neg (by simp [hne]), Fragment.tokens_append]
  exact (infix_joined _ h).trans (List.suffix_append _ _).isInfix

/-- The keyword in front of the select list. -/
def selectKeyword (q : Query) : Fragment :=
  if q.distinct then "SELECT DISTINCT" else "SELECT"

/-- The clauses between the select list and the groups. -/
def rowClauses (d : Dialect) (q : Query) : Fragment :=
  fromClause d q.source ++ joinClauses d q.joins ++ conditionClause "WHERE " q.filters

/-- The terms of the groups, after their keyword. -/
def groupClause (q : Query) : Fragment :=
  listClause "GROUP BY " q.groupBy

/-- The text of a query from its select list to its groups. -/
lemma tokens_fragment {q : Query} (hctes : q.ctes = []) (hcompound : q.compound = none)
    (d : Dialect) : ∃ after, (q.fragment d).tokens = q.selectKeyword.tokens ++
      (selectList q.items).tokens ++ (q.rowClauses d).tokens ++ q.groupClause.tokens ++ after := by
  obtain ⟨ctes, items, distinct, source, joins, filters, groupBy, having, orderBy, rows,
    compound⟩ := q
  obtain rfl : ctes = [] := hctes
  obtain rfl : compound = none := hcompound
  refine ⟨(conditionClause "HAVING " having ++
    listClause "ORDER BY " (orderBy.map OrderTerm.fragment) ++ rowClause rows).tokens, ?_⟩
  have hkeyword : selectKeyword ⟨[], items, distinct, source, joins, filters, groupBy, having,
      orderBy, rows, none⟩ = Fragment.text (if distinct then "SELECT DISTINCT" else "SELECT") := by
    cases distinct <;> rfl
  rw [fragment, hkeyword]
  simp only [withKeyword, List.isEmpty_nil, if_true, cteScopes, List.nil_append, rowClauses,
    groupClause, Fragment.tokens_group, Bracket.opening, Bracket.closing, List.append_nil,
    Fragment.tokens_append, List.append_assoc]

end Query

/-! ## Objects of plain names -/

lemma Member.put_fresh {f : Fragment} {json : Bool} {key : String} {ms : List (String × Member)}
    (h : key ∉ ms.map Prod.fst) : put f json [key] ms = ms ++ [(key, .value f json)] := by
  rw [put]
  induction ms with
  | nil => rfl
  | cons m ms ih =>
    obtain ⟨k, m⟩ := m
    rw [List.map_cons, List.mem_cons, not_or] at h
    rw [alter, if_neg (Ne.symm h.1), ih h.2, List.cons_append]

/-- Entries with distinct names without dots are put one after another. -/
lemma Member.foldl_put {es : List Entry} {ms : List (String × Member)}
    (hplain : ∀ e ∈ es, e.name.segments = [e.name.root])
    (hnodup : (ms.map Prod.fst ++ es.map fun e => e.name.root).Nodup) :
    es.foldl (fun ms e => put e.value e.json e.name.segments ms) ms =
      ms ++ es.map fun e => (e.name.root, .value e.value e.json) := by
  induction es generalizing ms with
  | nil => exact (List.append_nil ms).symm
  | cons e es ih =>
    obtain ⟨he, hes⟩ := List.forall_mem_cons.1 hplain
    have hfresh : e.name.root ∉ ms.map Prod.fst := by
      intro hmem
      exact (List.nodup_append.1 hnodup).2.2 _ hmem _ List.mem_cons_self rfl
    rw [List.foldl_cons, he, put_fresh hfresh, ih hes, List.map_cons, List.append_assoc]
    · rfl
    · simpa [List.map_append, List.append_assoc] using hnodup

lemma Member.mem_fragments {key : String} {m : Member} {ms : List (String × Member)}
    (h : (key, m) ∈ ms) : Fragment.string key ++ " VALUE " ++ m.fragment ∈ fragments ms := by
  induction ms with
  | nil => cases h
  | cons x ms ih =>
    rw [fragments]
    rcases List.mem_cons.1 h with rfl | h
    · exact List.mem_cons_self
    · exact List.mem_cons_of_mem _ (ih h)

/-- Each value stands in the object of entries with plain names. -/
lemma Entry.infix_object {es : List Entry} {e : Entry}
    (hplain : ∀ e ∈ es, e.name.segments = [e.name.root])
    (hnodup : (es.map fun e => e.name.root).Nodup) (he : e ∈ es) (hjson : e.json = false) :
    e.value.tokens <:+: (Entry.object es).tokens := by
  have hmem : (e.name.root, Member.value e.value e.json) ∈
      es.foldl (fun ms e => Member.put e.value e.json e.name.segments ms) [] := by
    rw [Member.foldl_put hplain (by simpa using hnodup)]
    exact List.mem_map_of_mem he
  have hargument := Query.infix_joined ", " (Member.mem_fragments hmem)
  rw [Fragment.tokens_append, Member.fragment, hjson] at hargument
  refine (List.suffix_append _ _).isInfix.trans (hargument.trans ?_)
  rw [Entry.object, Member.fragment, Fragment.call, Fragment.tokens_append, Fragment.paren,
    Fragment.tokens_group]
  exact (List.suffix_append _ _).isInfix.trans
    ((List.prefix_append _ _).isInfix.trans (List.suffix_append _ _).isInfix)

end PipelineSql
