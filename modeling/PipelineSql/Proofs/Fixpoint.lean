import Mathlib.Data.List.Chain
import Mathlib.Logic.Relation
import Mathlib.Tactic.Ring
import PipelineSql.Pipeline.Pass

/-!
# The rearrangement of stages comes to rest

A filter moves one stage at a time: in a turn, the first filter that may pass the stage before it
changes places with it, and adjacent filters become one. Each turn lowers the number of pairs of a
filter and another stage before it, and the turns end in `pushdown`, which does all of them in one
sweep.

Main result: the stages that come out of the standard passes are at rest, so that a further run of
either pass, or of both, changes nothing. Fusion sets no filter free, since it only makes one of
two neighbours that every filter may pass.
-/

namespace PipelineSql.Pipeline

variable {e f : Expr} {r s t : Stage} {acc pre rest stages todo a b : List Stage}

/-! ## Sweeps

Each pass goes over the stages once, with those done so far in reverse. -/

section Sweep

variable {R : Stage → Stage → Prop} {step : List Stage → Stage → List Stage}

/-- A sweep that puts every stage in front of those that it may follow leaves them as they are. -/
lemma foldl_eq_reverse_append
    (hstep : ∀ acc t, (∀ s ∈ acc.head?, R s t) → step acc t = t :: acc)
    (h : (acc.reverse ++ todo).IsChain R) : todo.foldl step acc = todo.reverse ++ acc := by
  induction todo generalizing acc with
  | nil => rfl
  | cons t todo ih =>
    have ht : step acc t = t :: acc := by
      apply hstep
      intro s hs
      obtain ⟨acc, rfl⟩ := List.head?_eq_some_iff.1 hs
      rw [List.reverse_cons, List.append_assoc] at h
      exact (List.isChain_append_cons_cons.1 h).2.1
    rw [List.foldl_cons, ht, ih (by simpa using h)]
    simp

lemma sweep_eq_self (hstep : ∀ acc t, (∀ s ∈ acc.head?, R s t) → step acc t = t :: acc)
    (h : stages.IsChain R) : (stages.foldl step []).reverse = stages := by
  rw [foldl_eq_reverse_append hstep (show ([].reverse ++ stages).IsChain R from h)]
  simp

/-- What every step keeps of the stages done so far holds of all in the end. -/
lemma isChain_foldl
    (hstep : ∀ acc t, acc.IsChain (flip R) → (step acc t).IsChain (flip R))
    (h : acc.IsChain (flip R)) : (todo.foldl step acc).IsChain (flip R) := by
  induction todo generalizing acc with
  | nil => exact h
  | cons t todo ih => exact ih (hstep acc t h)

lemma isChain_sweep
    (hstep : ∀ acc t, acc.IsChain (flip R) → (step acc t).IsChain (flip R)) :
    (stages.foldl step []).reverse.IsChain R :=
  List.isChain_reverse.2 (isChain_foldl hstep .nil)

lemma isChain_and {S : Stage → Stage → Prop} (h : stages.IsChain R) (h' : stages.IsChain S) :
    stages.IsChain fun s t => R s t ∧ S s t := by
  induction h with
  | nil => exact .nil
  | singleton s => exact .singleton s
  | cons_cons hst _ ih =>
    obtain ⟨hst', hrest⟩ := List.isChain_cons_cons.1 h'
    exact .cons_cons ⟨hst, hst'⟩ (ih hrest)

end Sweep

/-! ## Filters at rest -/

/-- Is the stage a filter? -/
def isFilter : Stage → Bool
  | .filter _ => true
  | _ => false

@[simp] lemma isFilter_filter : isFilter (.filter f) = true := rfl

lemma isFilter_eq_false_iff : isFilter s = false ↔ ∀ f, s ≠ .filter f := by
  cases s <;> simp [isFilter]

/-- Are two neighbours not both filters? -/
def Apart (s t : Stage) : Prop :=
  isFilter s = true → isFilter t = false

/-- If the second of two neighbours is a filter, can it not pass the first? -/
def Held (s t : Stage) : Prop :=
  ∀ f, t = .filter f → canPass f s = false

/-- Can neither two neighbours become one filter nor the second pass the first? -/
def Stuck (s t : Stage) : Prop :=
  Apart s t ∧ Held s t

lemma Stuck.of_not_filter (h : isFilter t = false) : Stuck s t :=
  ⟨fun _ => h, fun f ht => absurd ht (isFilter_eq_false_iff.1 h f)⟩

lemma isChain_apart (h : stages.IsChain Stuck) : stages.IsChain Apart :=
  h.imp fun _ _ => And.left

lemma isChain_held (h : stages.IsChain Stuck) : stages.IsChain Held :=
  h.imp fun _ _ => And.right

lemma add_of_not_filter {place : Expr → List Stage → List Stage} (h : isFilter s = false) :
    add place acc s = s :: acc := by
  cases s with
  | filter f => cases h
  | _ => rfl

/-! ### Adjacent filters -/

lemma add_append_of_apart (acc : List Stage) (t : Stage) (h : ∀ s ∈ acc.head?, Apart s t) :
    add append acc t = t :: acc := by
  cases ht : isFilter t with
  | false => exact add_of_not_filter ht
  | true =>
    cases t with
    | filter f =>
      rcases acc with _ | ⟨s, acc⟩
      · rfl
      · cases s with
        | filter e => exact absurd (h _ rfl rfl) (by simp)
        | _ => rfl
    | _ => cases ht

lemma mergeFilters_eq_self (h : stages.IsChain Apart) : mergeFilters stages = stages :=
  sweep_eq_self add_append_of_apart h

/-- A filter in place of a filter stands apart from the same stages. -/
lemma isChain_apart_replace (h : (.filter e :: acc).IsChain (flip Apart)) :
    (.filter f :: acc).IsChain (flip Apart) :=
  h.imp_head fun {_} hs hfs => absurd (hs hfs) (by simp)

lemma isChain_append_apart (h : acc.IsChain (flip Apart)) :
    (append f acc).IsChain (flip Apart) := by
  fun_cases append f acc with
  | case1 e rest => exact isChain_apart_replace h
  | case2 acc hacc =>
    refine List.isChain_cons.2 ⟨fun s hs hfs => ?_, h⟩
    obtain ⟨rest, rfl⟩ := List.head?_eq_some_iff.1 hs
    cases s with
    | filter e => exact absurd rfl (hacc e rest)
    | _ => cases hfs

lemma isChain_apart_add (acc : List Stage) (t : Stage) (h : acc.IsChain (flip Apart)) :
    (add append acc t).IsChain (flip Apart) := by
  cases ht : isFilter t with
  | false =>
    rw [add_of_not_filter ht]
    exact List.isChain_cons.2 ⟨fun s _ _ => ht, h⟩
  | true =>
    cases t with
    | filter f => exact isChain_append_apart h
    | _ => cases ht

lemma isChain_mergeFilters (stages : List Stage) : (mergeFilters stages).IsChain Apart :=
  isChain_sweep isChain_apart_add

/-- Where two filters meet, merging makes them one and leaves the rest. -/
lemma mergeFilters_meet (hacc : (.filter e :: acc).IsChain (flip Apart))
    (htodo : (.filter f :: todo).IsChain Apart) :
    mergeFilters (acc.reverse ++ .filter e :: .filter f :: todo) =
      acc.reverse ++ .filter (conjoin e f) :: todo := by
  have hpre : (acc.reverse ++ [Stage.filter e]).foldl (add append) [] = .filter e :: acc := by
    have h : ([].reverse ++ (acc.reverse ++ [Stage.filter e])).IsChain Apart := by
      rw [← List.reverse_cons]
      exact List.isChain_reverse.2 hacc
    simpa using foldl_eq_reverse_append add_append_of_apart h
  have hpost : ((.filter (conjoin e f) :: acc).reverse ++ todo).IsChain Apart := by
    refine List.isChain_append.2
      ⟨List.isChain_reverse.2 (isChain_apart_replace hacc), htodo.tail, ?_⟩
    intro s _ t ht _
    exact (List.isChain_cons.1 htodo).1 t ht rfl
  calc mergeFilters (acc.reverse ++ .filter e :: .filter f :: todo)
      = (todo.foldl (add append) (add append
          ((acc.reverse ++ [Stage.filter e]).foldl (add append) []) (.filter f))).reverse := by
        simp [mergeFilters]
    _ = (todo.foldl (add append) (.filter (conjoin e f) :: acc)).reverse := by rw [hpre]; rfl
    _ = acc.reverse ++ .filter (conjoin e f) :: todo := by
        rw [foldl_eq_reverse_append add_append_of_apart hpost]
        simp

/-! ### Filters that move -/

lemma nodesOfList_append (es fs : List Expr) :
    Expr.nodesOfList (es ++ fs) = Expr.nodesOfList es ++ Expr.nodesOfList fs := by
  induction es with
  | nil => rfl
  | cons e es ih => simp [Expr.nodesOfList, ih]

lemma references_logic (op : Connective) (operands : List Expr) :
    (Expr.logic op operands).references =
      (Expr.nodesOfList operands).filterMap Expr.reference? := by
  rw [Expr.references, Expr.nodes, List.filterMap_cons_none rfl]

/-- Two filters together read what they read by themselves. -/
lemma references_conjoin (e f : Expr) :
    (conjoin e f).references = e.references ++ f.references := by
  fun_cases conjoin e f with
  | case1 operands =>
    rw [references_logic, references_logic, nodesOfList_append]
    simp [Expr.nodesOfList, Expr.references]
  | case2 =>
    rw [references_logic]
    simp [Expr.nodesOfList, Expr.references]

lemma canPass_conjoin (e f : Expr) (s : Stage) :
    canPass (conjoin e f) s = (canPass e s && canPass f s) := by
  cases s <;> simp [canPass, references_conjoin]

/-- A filter that may not move still may not when another is added to it. -/
lemma Stuck.conjoin (h : Stuck s (.filter e)) : Stuck s (.filter (conjoin e f)) := by
  refine ⟨h.1, ?_⟩
  rintro _ ⟨⟩
  rw [canPass_conjoin, h.2 e rfl, Bool.false_and]

lemma isChain_push (h : acc.IsChain (flip Stuck)) : (push f acc).IsChain (flip Stuck) := by
  fun_induction push f acc with
  | case1 => exact .singleton _
  | case2 e rest => exact h.imp_head Stuck.conjoin
  | case3 s rest hs hpass ih =>
    exact List.isChain_cons.2
      ⟨fun _ _ => .of_not_filter (isFilter_eq_false_iff.2 hs), ih h.tail⟩
  | case4 s rest hs hpass =>
    refine .cons_cons ⟨?_, ?_⟩ h
    · intro hfs
      rw [isFilter_eq_false_iff.2 hs] at hfs
      cases hfs
    · rintro _ ⟨⟩
      simpa using hpass

lemma isChain_stuck_add (acc : List Stage) (t : Stage) (h : acc.IsChain (flip Stuck)) :
    (add push acc t).IsChain (flip Stuck) := by
  cases ht : isFilter t with
  | false =>
    rw [add_of_not_filter ht]
    exact List.isChain_cons.2 ⟨fun s _ => .of_not_filter ht, h⟩
  | true =>
    cases t with
    | filter f => exact isChain_push h
    | _ => cases ht

lemma isChain_pushdown (stages : List Stage) : (pushdown stages).IsChain Stuck :=
  isChain_sweep isChain_stuck_add

lemma add_push_of_stuck (acc : List Stage) (t : Stage) (h : ∀ s ∈ acc.head?, Stuck s t) :
    add push acc t = t :: acc := by
  cases ht : isFilter t with
  | false => exact add_of_not_filter ht
  | true =>
    cases t with
    | filter f =>
      rcases acc with _ | ⟨s, acc⟩
      · rfl
      · obtain ⟨hapart, hheld⟩ := h s rfl
        cases s with
        | filter e => exact absurd (hapart rfl) (by simp)
        | _ => simp [add, push, hheld f rfl]
    | _ => cases ht

lemma pushdown_eq_self (h : stages.IsChain Stuck) : pushdown stages = stages := by
  rw [pushdown, mergeFilters_eq_self (isChain_apart h)]
  exact sweep_eq_self add_push_of_stuck h

/-! ## Turns -/

/-- The stages with the first filter that may pass the stage before it moved before that. -/
def move? : List Stage → Option (List Stage)
  | s :: .filter f :: rest =>
    if canPass f s then some (.filter f :: s :: rest)
    else (move? (.filter f :: rest)).map (s :: ·)
  | s :: rest => (move? rest).map (s :: ·)
  | [] => none

/-- The stages after one turn. -/
def turn? (stages : List Stage) : Option (List Stage) :=
  (move? stages).map mergeFilters

/-- Does one turn lead from the first stages to the second? -/
def Turn (a b : List Stage) : Prop :=
  turn? a = some b

lemma move?_cons_of_held (h : ∀ t ∈ rest.head?, Held s t) :
    move? (s :: rest) = (move? rest).map (s :: ·) := by
  rcases rest with _ | ⟨t, rest⟩
  · rfl
  · cases t with
    | filter f => simp [move?, h _ rfl f rfl]
    | _ => rfl

lemma move?_eq_none (h : stages.IsChain Held) : move? stages = none := by
  induction stages with
  | nil => rfl
  | cons s rest ih =>
    obtain ⟨hs, hrest⟩ := List.isChain_cons.1 h
    rw [move?_cons_of_held hs, ih hrest, Option.map_none]

/-- If no filter before it may move, the one that may is the one that does. -/
lemma move?_append (h : (pre ++ [s]).IsChain Held) (hpass : canPass f s = true) :
    move? (pre ++ s :: .filter f :: rest) = some (pre ++ .filter f :: s :: rest) := by
  induction pre with
  | nil => simp [move?, hpass]
  | cons r pre ih =>
    obtain ⟨hr, hpre⟩ := List.isChain_cons.1 h
    have hhead : ∀ t ∈ (pre ++ s :: .filter f :: rest).head?, Held r t := by
      cases pre with
      | nil => exact hr
      | cons q pre => exact hr
    rw [List.cons_append, move?_cons_of_held hhead, ih hpre]
    rfl

/-! ### Turns end -/

/-- How many pairs there are of a filter and another stage before it. -/
def inversions : List Stage → Nat
  | [] => 0
  | s :: rest => (if isFilter s then 0 else rest.countP isFilter) + inversions rest

@[simp] lemma inversions_filter_cons : inversions (.filter f :: rest) = inversions rest := by
  simp [inversions]

@[simp] lemma countP_filter_cons :
    (Stage.filter f :: rest).countP isFilter = rest.countP isFilter + 1 :=
  List.countP_cons_of_pos rfl

lemma inversions_append (pre rest : List Stage) :
    inversions (pre ++ rest) =
      inversions pre + pre.countP (!isFilter ·) * rest.countP isFilter + inversions rest := by
  induction pre with
  | nil => simp [inversions]
  | cons s pre ih =>
    cases h : isFilter s with
    | false => simp [inversions, h, ih]; ring
    | true => simp [inversions, h, ih]

lemma isFilter_of_canPass (h : canPass f s = true) : isFilter s = false := by
  cases s with
  | filter e => cases h
  | _ => rfl

lemma countP_move? (h : move? a = some b) : b.countP isFilter = a.countP isFilter := by
  fun_induction move? a generalizing b with
  | case1 s f rest hpass =>
    cases h
    simp [List.countP_cons, isFilter_of_canPass hpass]
  | case2 s f rest hpass ih =>
    obtain ⟨c, hc, rfl⟩ := Option.map_eq_some_iff.1 h
    rw [List.countP_cons, ih hc, ← List.countP_cons]
  | case3 s rest hrest ih =>
    obtain ⟨c, hc, rfl⟩ := Option.map_eq_some_iff.1 h
    rw [List.countP_cons, ih hc, ← List.countP_cons]
  | case4 => cases h

/-- A move undoes the inversion of the two stages that change places, and no other. -/
lemma inversions_move? (h : move? a = some b) : inversions b < inversions a := by
  fun_induction move? a generalizing b with
  | case1 s f rest hpass =>
    cases h
    simp [inversions, List.countP_cons, isFilter_of_canPass hpass]
  | case2 s f rest hpass ih =>
    obtain ⟨c, hc, rfl⟩ := Option.map_eq_some_iff.1 h
    have hlt := ih hc
    rw [inversions, inversions, countP_move? hc]
    omega
  | case3 s rest hrest ih =>
    obtain ⟨c, hc, rfl⟩ := Option.map_eq_some_iff.1 h
    have hlt := ih hc
    rw [inversions, inversions, countP_move? hc]
    omega
  | case4 => cases h

/-- A stage stays apart from the one that it is put after, or both are filters. -/
lemma apart_head_or_filters (acc : List Stage) (t : Stage) : (∀ s ∈ acc.head?, Apart s t) ∨
    ∃ e f rest, acc = .filter e :: rest ∧ t = .filter f := by
  refine or_iff_not_imp_left.2 fun h => ?_
  simp only [not_forall, Apart, Bool.not_eq_false] at h
  obtain ⟨s, hs, hfs, hft⟩ := h
  obtain ⟨rest, rfl⟩ := List.head?_eq_some_iff.1 hs
  cases s with
  | filter e =>
    cases t with
    | filter f => exact ⟨e, f, rest, rfl, rfl⟩
    | _ => cases hft
  | _ => cases hfs

lemma inversions_add_append (acc : List Stage) (t : Stage) (todo : List Stage) :
    inversions ((add append acc t).reverse ++ todo) ≤ inversions (acc.reverse ++ t :: todo) := by
  obtain h | ⟨e, f, rest, rfl, rfl⟩ := apart_head_or_filters acc t
  · rw [add_append_of_apart acc t h]
    simp
  · simp only [add, append, List.reverse_cons, List.append_assoc, List.singleton_append,
      inversions_append, inversions_filter_cons, countP_filter_cons]
    gcongr
    omega

lemma inversions_foldl (acc todo : List Stage) :
    inversions (todo.foldl (add append) acc).reverse ≤ inversions (acc.reverse ++ todo) := by
  induction todo generalizing acc with
  | nil => simp
  | cons t todo ih => exact (ih (add append acc t)).trans (inversions_add_append acc t todo)

lemma inversions_mergeFilters (stages : List Stage) :
    inversions (mergeFilters stages) ≤ inversions stages :=
  inversions_foldl [] stages

lemma inversions_turn (h : Turn a b) : inversions b < inversions a := by
  obtain ⟨c, hc, rfl⟩ := Option.map_eq_some_iff.1 h
  exact (inversions_mergeFilters c).trans_lt (inversions_move? hc)

lemma wellFounded_turn : WellFounded (flip Turn) :=
  Subrelation.wf inversions_turn (measure inversions).wf

/-! ### Where turns end -/

/-- Turns take a filter as far as `push` does. -/
lemma turns_push (hacc : acc.IsChain (flip Stuck)) (hhead : ∀ s ∈ acc.head?, isFilter s = false)
    (htodo : (.filter f :: todo).IsChain Apart) :
    Relation.ReflTransGen Turn (acc.reverse ++ .filter f :: todo)
      ((push f acc).reverse ++ todo) := by
  fun_induction push f acc generalizing todo with
  | case1 => exact .refl
  | case2 e rest => exact absurd (hhead _ rfl) (by simp)
  | case3 s rest hs hpass ih =>
    have hmove : move? ((s :: rest).reverse ++ .filter f :: todo) =
        some (rest.reverse ++ .filter f :: s :: todo) := by
      rw [List.reverse_cons, List.append_assoc, List.singleton_append]
      refine move?_append ?_ hpass
      rw [← List.reverse_cons]
      exact isChain_held (List.isChain_reverse.2 hacc)
    have hnext : (.filter f :: s :: todo).IsChain Apart := by
      have hs := isFilter_of_canPass hpass
      refine .cons_cons (fun _ => hs) (List.isChain_cons.2 ⟨fun t _ h => ?_, htodo.tail⟩)
      rw [hs] at h
      cases h
    have hrest : rest.IsChain (flip Apart) := hacc.tail.imp fun _ _ h => h.1
    by_cases hmeet : ∃ e rest', rest = .filter e :: rest'
    · -- the filter meets another one and becomes part of it
      obtain ⟨e, rest, rfl⟩ := hmeet
      have hturn : Turn ((s :: .filter e :: rest).reverse ++ .filter f :: todo)
          (rest.reverse ++ .filter (conjoin e f) :: s :: todo) := by
        rw [Turn, turn?, hmove, Option.map_some, List.reverse_cons, List.append_assoc,
          List.singleton_append, mergeFilters_meet hrest hnext]
      simpa [push] using Relation.ReflTransGen.single hturn
    · -- it stands apart from what is before it and may go on
      have hhead : ∀ r ∈ rest.head?, isFilter r = false := by
        intro r hr
        obtain ⟨rest, rfl⟩ := List.head?_eq_some_iff.1 hr
        exact isFilter_eq_false_iff.2 fun e h => hmeet ⟨e, rest, h ▸ rfl⟩
      have hchain : (rest.reverse ++ .filter f :: s :: todo).IsChain Apart := by
        refine List.isChain_append.2 ⟨List.isChain_reverse.2 hrest, hnext, ?_⟩
        intro r hr _ _ h
        rw [List.getLast?_reverse] at hr
        rw [hhead r hr] at h
        cases h
      have hturn : Turn ((s :: rest).reverse ++ .filter f :: todo)
          (rest.reverse ++ .filter f :: s :: todo) := by
        rw [Turn, turn?, hmove, Option.map_some, mergeFilters_eq_self hchain]
      simpa using (ih hacc.tail hhead hnext).head hturn
  | case4 s rest hs hpass => simpa using Relation.ReflTransGen.refl

/-- Turns take all filters as far as a sweep of `push` does. -/
lemma turns_foldl (hacc : acc.IsChain (flip Stuck)) (h : (acc.reverse ++ todo).IsChain Apart) :
    Relation.ReflTransGen Turn (acc.reverse ++ todo) (todo.foldl (add push) acc).reverse := by
  induction todo generalizing acc with
  | nil => simpa using Relation.ReflTransGen.refl
  | cons t todo ih =>
    have hnext := isChain_stuck_add acc t hacc
    cases ht : isFilter t with
    | false =>
      rw [List.foldl_cons, add_of_not_filter ht] at *
      simpa using ih hnext (by simpa using h)
    | true =>
      cases t with
      | filter f =>
        obtain ⟨_, htodo, hmeet⟩ := List.isChain_append.1 h
        have hhead : ∀ s ∈ acc.head?, isFilter s = false := by
          intro s hs
          cases hfs : isFilter s with
          | false => rfl
          | true => exact absurd (hmeet s (by simpa using hs) _ rfl hfs) (by simp)
        have hpush : ((push f acc).reverse ++ todo).IsChain Apart := by
          refine List.isChain_append.2
            ⟨isChain_apart (List.isChain_reverse.2 hnext), htodo.tail, ?_⟩
          exact fun _ _ t ht _ => (List.isChain_cons.1 htodo).1 t ht rfl
        exact (turns_push hacc hhead htodo).trans (ih hnext hpush)
      | _ => cases ht

lemma turns_pushdown (stages : List Stage) :
    Relation.ReflTransGen Turn (mergeFilters stages) (pushdown stages) :=
  turns_foldl (.nil : [].IsChain _) (isChain_mergeFilters stages)

lemma turn?_pushdown (stages : List Stage) : turn? (pushdown stages) = none := by
  rw [turn?, move?_eq_none (isChain_held (isChain_pushdown stages)), Option.map_none]

/-! ## Sorts and row windows at rest -/

/-- Are two stages both limits, both skips or both sorts? -/
inductive Alike : Stage → Stage → Prop where
  | limit (m n : Nat) : Alike (.limit m) (.limit n)
  | skip (m n : Nat) : Alike (.skip m) (.skip n)
  | sort (ks ls : List SortKey) (m n : Option Nat) : Alike (.sort ks m) (.sort ls n)

/-- Are two stages the same, but for the count, the hint or the keys of a row window or sort? -/
def Like (s t : Stage) : Prop :=
  s = t ∨ Alike s t

namespace Alike

lemma symm (h : Alike s t) : Alike t s := by
  cases h <;> constructor

lemma trans (h : Alike r s) (h' : Alike s t) : Alike r t := by
  cases h <;> cases h' <;> constructor

lemma not_filter (h : Alike s t) : isFilter t = false := by
  cases h <;> rfl

lemma canPass_eq (h : Alike s t) : canPass f s = canPass f t := by
  cases h <;> rfl

end Alike

lemma Stuck.alike_right (h : Alike t s) : Stuck r s :=
  .of_not_filter h.not_filter

lemma Stuck.alike_left (h : Stuck s t) (hr : Alike r s) : Stuck r t :=
  ⟨fun hr' => absurd hr.symm.not_filter (by simp [hr']), fun f hf => hr.canPass_eq.trans (h.2 f hf)⟩

lemma Stuck.like {s' t' : Stage} (h : Stuck s t) (hs : Like s s') (ht : Like t t') :
    Stuck s' t' := by
  have h' : Stuck s' t := by
    rcases hs with rfl | hs
    · exact h
    · exact h.alike_left hs.symm
  rcases ht with rfl | ht
  · exact h'
  · exact .alike_right ht

/-- Stages that are alike to those of a chain form a chain. -/
lemma isChain_of_like {R : Stage → Stage → Prop}
    (hR : ∀ {s t s' t'}, R s t → Like s s' → Like t t' → R s' t')
    (h : a.IsChain R) (hab : List.Forall₂ Like a b) : b.IsChain R := by
  induction hab with
  | nil => exact .nil
  | @cons s s' a b hs hab ih =>
    refine List.isChain_cons.2 ⟨fun t' ht' => ?_, ih h.tail⟩
    obtain ⟨b, rfl⟩ := List.head?_eq_some_iff.1 ht'
    obtain ⟨t, a, ht, _, rfl⟩ := List.forall₂_cons_right_iff.1 hab
    exact hR ((List.isChain_cons.1 h).1 t rfl) hs ht

lemma not_alike_of_like {s' t' : Stage} (h : ¬ Alike s t) (hs : Like s s') (ht : Like t t') :
    ¬ Alike s' t' := by
  intro h'
  apply h
  rcases hs with rfl | hs <;> rcases ht with rfl | ht
  · exact h'
  · exact h'.trans ht.symm
  · exact hs.trans h'
  · exact (hs.trans h').trans ht.symm

/-! ### Runs of one kind -/

/-- A stage is put after the others, or is made one with a last stage of its kind. -/
lemma absorb_cases (acc : List Stage) (t : Stage) :
    (absorb acc t = t :: acc ∧ ∀ s ∈ acc.head?, ¬ Alike s t) ∨
      ∃ s u rest, acc = s :: rest ∧ absorb acc t = u :: rest ∧ Alike s t ∧ Alike u t := by
  fun_cases absorb acc t with
  | case1 m rest n => exact .inr ⟨_, _, rest, rfl, rfl, .limit .., .limit ..⟩
  | case2 m rest n => exact .inr ⟨_, _, rest, rfl, rfl, .skip .., .skip ..⟩
  | case3 keys hint rest ks n => exact .inr ⟨_, _, rest, rfl, rfl, .sort .., .sort ..⟩
  | case4 _ _ hlimit hskip hsort =>
    refine .inl ⟨rfl, fun s hs h => ?_⟩
    obtain ⟨rest, rfl⟩ := List.head?_eq_some_iff.1 hs
    cases h with
    | limit m n => exact hlimit m rest n rfl rfl
    | skip m n => exact hskip m rest n rfl rfl
    | sort ks ls m n => exact hsort ks m rest ls n rfl rfl

lemma absorb_of_not_alike (acc : List Stage) (t : Stage) (h : ∀ s ∈ acc.head?, ¬ Alike s t) :
    absorb acc t = t :: acc := by
  obtain ⟨he, -⟩ | ⟨s, u, rest, rfl, -, hst, -⟩ := absorb_cases acc t
  · exact he
  · exact absurd hst (h s rfl)

lemma isChain_absorb (acc : List Stage) (t : Stage) (h : acc.IsChain (flip (¬ Alike · ·))) :
    (absorb acc t).IsChain (flip (¬ Alike · ·)) := by
  obtain ⟨he, hhead⟩ | ⟨s, u, rest, rfl, he, hst, hut⟩ := absorb_cases acc t
  · rw [he]
    exact List.isChain_cons.2 ⟨hhead, h⟩
  · rw [he]
    exact h.imp_head fun {r} hrs hru => hrs (hru.trans (hut.trans hst.symm))

lemma isChain_collapse (stages : List Stage) : (collapse stages).IsChain (¬ Alike · ·) :=
  isChain_sweep isChain_absorb

lemma collapse_eq_self (h : stages.IsChain (¬ Alike · ·)) : collapse stages = stages :=
  sweep_eq_self absorb_of_not_alike h

/-- Making one of two neighbours that every filter may pass sets no filter free. -/
lemma isChain_stuck_absorb (h : (acc.reverse ++ t :: todo).IsChain Stuck) :
    ((absorb acc t).reverse ++ todo).IsChain Stuck := by
  obtain ⟨he, -⟩ | ⟨s, u, rest, rfl, he, hst, hut⟩ := absorb_cases acc t
  · simpa [he] using h
  · rw [List.reverse_cons, List.append_assoc, List.singleton_append, List.isChain_append_cons_cons]
      at h
    obtain ⟨hpre, -, hpost⟩ := h
    rw [he, List.reverse_cons, List.append_assoc, List.singleton_append, List.isChain_split]
    refine ⟨?_, hpost.imp_head fun {_} htr => htr.alike_left hut⟩
    refine List.isChain_append.2 ⟨(List.isChain_append.1 hpre).1, .singleton u, ?_⟩
    rintro r - _ ⟨⟩
    exact .alike_right (hst.trans hut.symm)

lemma isChain_stuck_foldl (h : (acc.reverse ++ todo).IsChain Stuck) :
    (todo.foldl absorb acc).reverse.IsChain Stuck := by
  induction todo generalizing acc with
  | nil => simpa using h
  | cons t todo ih => exact ih (isChain_stuck_absorb h)

lemma isChain_stuck_collapse (h : stages.IsChain Stuck) : (collapse stages).IsChain Stuck :=
  isChain_stuck_foldl (show ([].reverse ++ stages).IsChain Stuck from h)

/-! ### Hints -/

lemma like_hint (stages : List Stage) : List.Forall₂ Like stages (hint stages) := by
  fun_induction hint stages with
  | case1 => exact .nil
  | case2 keys known rest ih => exact .cons (.inr (.sort ..)) ih
  | case3 s rest hs ih => exact .cons (.inl rfl) ih

/-- Hints do not change how many rows are needed. -/
lemma needed?_hint (stages : List Stage) : needed? (hint stages) = needed? stages := by
  rcases stages with _ | ⟨s, _ | ⟨t, rest⟩⟩
  · rfl
  · cases s <;> rfl
  · cases s with
    | skip m => cases t <;> rfl
    | _ => rfl

lemma hint_hint (stages : List Stage) : hint (hint stages) = hint stages := by
  fun_induction hint stages with
  | case1 => rfl
  | case2 keys known rest ih =>
    rw [hint, ih, needed?_hint]
    cases needed? rest <;> rfl
  | case3 s rest hs ih =>
    cases s with
    | sort keys known => exact absurd rfl (hs keys known)
    | _ => simp [hint, ih]

lemma isChain_fusion (stages : List Stage) : (fusion stages).IsChain (¬ Alike · ·) :=
  isChain_of_like not_alike_of_like (isChain_collapse stages) (like_hint _)

lemma isChain_stuck_fusion (h : stages.IsChain Stuck) : (fusion stages).IsChain Stuck :=
  isChain_of_like Stuck.like (isChain_stuck_collapse h) (like_hint _)

lemma fusion_fusion (stages : List Stage) : fusion (fusion stages) = fusion stages := by
  rw [fusion, collapse_eq_self (isChain_fusion stages), fusion, hint_hint]

lemma pushdown_fusion (h : stages.IsChain Stuck) : pushdown (fusion stages) = fusion stages :=
  pushdown_eq_self (isChain_stuck_fusion h)

/-- Filters take turns that end, and end where the sweep puts them. What the standard passes leave
has no filter that may move and no neighbours that may become one, and each pass leaves it as it is,
and so do both. -/
theorem optimize_at_rest (p : Pipeline) :
    WellFounded (flip Turn) ∧
    Relation.ReflTransGen Turn (mergeFilters p.stages) (Pass.pushdown.run p.stages) ∧
    turn? (Pass.pushdown.run p.stages) = none ∧
    p.optimize.stages.IsChain (fun s t => Stuck s t ∧ ¬ Alike s t) ∧
    Pass.pushdown.run p.optimize.stages = p.optimize.stages ∧
    Pass.fusion.run p.optimize.stages = p.optimize.stages ∧
    p.optimize.optimize = p.optimize := by
  have hstuck := isChain_pushdown p.stages
  have hpush : Pass.pushdown.run p.optimize.stages = p.optimize.stages := pushdown_fusion hstuck
  have hfuse : Pass.fusion.run p.optimize.stages = p.optimize.stages := fusion_fusion _
  have hboth : Pass.standard.run p.optimize.stages = p.optimize.stages :=
    (congrArg Pass.fusion.run hpush).trans hfuse
  refine ⟨wellFounded_turn, turns_pushdown p.stages, turn?_pushdown p.stages, ?_, hpush, hfuse, ?_⟩
  · exact isChain_and (isChain_stuck_fusion hstuck) (isChain_fusion _)
  · rw [optimize, hboth]

end PipelineSql.Pipeline
