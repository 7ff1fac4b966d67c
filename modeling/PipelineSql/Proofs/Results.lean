import Mathlib.Data.List.Lex
import PipelineSql.Proofs.FilterMoves

/-!
# Results of pipelines

An interpretation says what each stage makes of a list of documents. Little is asked of it: a filter
keeps the documents of which it holds and looks at no more than it reads, a sort is stable, a
projection leaves alone what it preserves. Every other stage is free.

Main result: in every interpretation `pushdown` keeps the results of the stages, if there is no row
window among them.
-/

namespace PipelineSql

/-! ## Stable sorts -/

section Sorting

variable {α : Type*} {le : α → α → Bool} {xs ys zs : List α}

/-- Do two elements come before each other? -/
def tied (le : α → α → Bool) (a b : α) : Bool :=
  le a b && le b a

/-- The second list is the first in the order `le`, and elements that are tied have kept their
order. Since an element is tied with itself, none is lost and none is new. -/
structure StableSort (le : α → α → Bool) (xs ys : List α) : Prop where
  sorted : ys.Pairwise fun a b => le a b = true
  ties : ∀ a, ys.filter (tied le a) = xs.filter (tied le a)

lemma tied_self (total : ∀ a b, le a b = true ∨ le b a = true) (a : α) : tied le a a = true := by
  simp [tied, or_self_iff.1 (total a a)]

/-- Sorted lists with the same ties are the same. -/
lemma eq_of_ties (total : ∀ a b, le a b = true ∨ le b a = true)
    (hys : ys.Pairwise fun a b => le a b = true) (hzs : zs.Pairwise fun a b => le a b = true)
    (h : ∀ a, ys.filter (tied le a) = zs.filter (tied le a)) : ys = zs := by
  have hmem {us vs : List α} (h : ∀ a, us.filter (tied le a) = vs.filter (tied le a)) {a : α}
      (ha : a ∈ us) : a ∈ vs := by
    have hself : a ∈ us.filter (tied le a) := List.mem_filter.2 ⟨ha, tied_self total a⟩
    rw [h a] at hself
    exact (List.mem_filter.1 hself).1
  have hfirst {b : α} {us : List α} (hus : (b :: us).Pairwise fun a b => le a b = true) {a : α}
      (ha : a ∈ b :: us) : le b a = true := by
    rcases List.mem_cons.1 ha with rfl | ha
    · exact or_self_iff.1 (total a a)
    · exact List.rel_of_pairwise_cons hus ha
  induction ys generalizing zs with
  | nil =>
    refine (List.eq_nil_iff_forall_not_mem.2 fun a ha => ?_).symm
    exact List.not_mem_nil (hmem (fun a => (h a).symm) ha)
  | cons y ys ih =>
    cases zs with
    | nil => exact (List.not_mem_nil (hmem h List.mem_cons_self)).elim
    | cons z zs =>
      -- each head comes before the other, so the two are tied and head the list of their ties
      have hyz : tied le y z = true := by
        rw [tied, hfirst hys (hmem (fun a => (h a).symm) List.mem_cons_self),
          hfirst hzs (hmem h List.mem_cons_self), Bool.and_self]
      have hheads := h y
      rw [List.filter_cons_of_pos (tied_self total y), List.filter_cons_of_pos hyz] at hheads
      obtain ⟨rfl, -⟩ := List.cons.inj hheads
      refine congrArg (List.cons y) (ih hys.of_cons hzs.of_cons fun a => ?_)
      have ha := h a
      cases hay : tied le a y with
      | true => simpa [hay] using ha
      | false => simpa [hay] using ha

namespace StableSort

lemma unique (total : ∀ a b, le a b = true ∨ le b a = true) (hys : StableSort le xs ys)
    (hzs : StableSort le xs zs) : ys = zs :=
  eq_of_ties total hys.sorted hzs.sorted fun a => (hys.ties a).trans (hzs.ties a).symm

/-- What is left of a stable sort is a stable sort of what is left. -/
lemma filter (h : StableSort le xs ys) (p : α → Bool) :
    StableSort le (xs.filter p) (ys.filter p) where
  sorted := h.sorted.filter p
  ties a := by rw [List.filter_comm, h.ties a, List.filter_comm]

/-- Merge sort is stable. -/
lemma mergeSort (total : ∀ a b, le a b = true ∨ le b a = true)
    (trans : ∀ a b c, le a b = true → le b c = true → le a c = true) (xs : List α) :
    StableSort le xs (xs.mergeSort le) where
  sorted := List.pairwise_mergeSort trans (fun a b => by simpa using total a b) xs
  ties a := by
    -- the ties of an element are in order already, so sorting keeps them as a sublist
    have hpairwise : (xs.filter (tied le a)).Pairwise fun b c => le b c = true := by
      refine List.pairwise_of_forall_mem_list fun b hb c hc => ?_
      have hab := (List.mem_filter.1 hb).2
      have hac := (List.mem_filter.1 hc).2
      simp only [tied, Bool.and_eq_true] at hab hac
      exact trans b a c hab.2 hac.1
    have hsub := (List.sublist_mergeSort trans (fun a b => by simpa using total a b) hpairwise
      List.filter_sublist).filter (tied le a)
    rw [List.filter_filter] at hsub
    simp only [Bool.and_self] at hsub
    exact (hsub.eq_of_length_le ((List.mergeSort_perm xs le).filter _).length_eq.le).symm

end StableSort

end Sorting

/-! ## Interpretations -/

/-- Do two documents agree in what a reference reads? -/
def Reference.Agrees {Doc Value : Type*} (value : Doc → Path → Value) (d d' : Doc) :
    Reference → Prop
  | .field path => value d path = value d' path
  | .wholeDocument => d = d'

/-- What stages make of lists of documents. -/
structure Interpretation (Doc Value : Type*) where
  /-- The value at a path of a document. -/
  value : Doc → Path → Value
  /-- Does a filter hold of a document? -/
  holds : Expr → Doc → Bool
  /-- The documents after a stage. -/
  run : Stage → List Doc → List Doc
  /-- A filter tells no documents apart that agree in what it reads. -/
  holds_congr : ∀ {f : Expr} {d d' : Doc},
    (∀ r ∈ f.references, r.Agrees value d d') → holds f d = holds f d'
  /-- A conjunction holds if all its operands do. -/
  holds_and : ∀ (operands : List Expr) (d : Doc),
    holds (.logic .and operands) d = operands.all (holds · d)
  /-- A filter keeps the documents of which it holds. -/
  run_filter : ∀ (f : Expr) (ds : List Doc), run (.filter f) ds = ds.filter (holds f)
  /-- A sort is stable, by some total preorder. -/
  run_sort : ∀ (keys : List SortKey) (hint : Option Nat), ∃ le : Doc → Doc → Bool,
    (∀ d d', le d d' = true ∨ le d' d = true) ∧
    (∀ d d' d'', le d d' = true → le d' d'' = true → le d d'' = true) ∧
    ∀ ds, StableSort le ds (run (.sort keys hint) ds)
  /-- A projection makes of each document one that agrees with it at every path that the projection
  preserves. -/
  run_project : ∀ fields : List (Path × ProjectField), ∃ project : Doc → Doc,
    (∀ ds, run (.project fields) ds = ds.map project) ∧
    ∀ d path, Projection.preserves fields path = true → value (project d) path = value d path

/-! ## Documents of numbers -/

namespace Numbers

/-- Does a conjunct hold of a document that has a number at every path? Only equality with a number
is tested. -/
def test (d : Path → Int) : Expr → Bool
  | .compare .eq (.field f) (.lit (.int n)) => d f.path = n
  | _ => true

/-- The numbers by which a document is sorted. -/
def ranks (keys : List SortKey) (d : Path → Int) : List Int :=
  keys.map fun k =>
    match k.order with
    | .ascending => d k.path
    | .descending => -d k.path

/-- Does a document come before another, or at the same place? -/
def comesBefore (keys : List SortKey) (d d' : Path → Int) : Bool :=
  ranks keys d ≤ ranks keys d'

/-- A document with nothing but what a projection preserves. -/
def projected (fields : List (Path × ProjectField)) (d : Path → Int) (path : Path) : Int :=
  if Projection.preserves fields path then d path else 0

/-- The documents after a stage. -/
def run : Stage → List (Path → Int) → List (Path → Int)
  | .filter f, ds => ds.filter fun d => f.conjuncts.all (test d)
  | .sort keys _, ds => ds.mergeSort (comesBefore keys)
  | .project fields, ds => ds.map (projected fields)
  | .limit n, ds => ds.take n
  | .skip n, ds => ds.drop n
  | _, ds => ds

lemma test_congr {e : Expr} {d d' : Path → Int}
    (h : ∀ r ∈ e.references, r.Agrees (fun d path => d path) d d') : test d e = test d' e := by
  unfold test
  split
  · next f n =>
    have hf : d f.path = d' f.path := h (.field f.path) List.mem_cons_self
    rw [hf]
  · rfl

/-- Stages on documents that have a number at every path. -/
def interpretation : Interpretation (Path → Int) Int where
  value d path := d path
  holds f d := f.conjuncts.all (test d)
  run := run
  holds_congr {f d d'} h := by
    rw [Bool.eq_iff_iff, List.all_eq_true, List.all_eq_true]
    refine forall₂_congr fun c hc => ?_
    have hsub : c.references ⊆ f.references := by
      rw [← f.references_conjuncts]
      exact fun r hr => List.mem_flatMap.2 ⟨c, hc, hr⟩
    rw [test_congr fun r hr => h r (hsub hr)]
  holds_and operands d := by
    rw [Expr.conjuncts_and]
    induction operands with
    | nil => rfl
    | cons e es ih => rw [Expr.conjunctsOfList, List.all_append, ih, List.all_cons]
  run_filter _ _ := rfl
  run_sort keys hint := by
    have total (d d' : Path → Int) :
        comesBefore keys d d' = true ∨ comesBefore keys d' d = true := by
      simpa [comesBefore] using le_total (ranks keys d) (ranks keys d')
    have trans (d d' d'' : Path → Int) (h : comesBefore keys d d' = true)
        (h' : comesBefore keys d' d'' = true) : comesBefore keys d d'' = true := by
      simp only [comesBefore, decide_eq_true_eq] at h h' ⊢
      exact h.trans h'
    exact ⟨comesBefore keys, total, trans, .mergeSort total trans⟩
  run_project fields := by
    refine ⟨projected fields, fun _ => rfl, fun d path hpath => ?_⟩
    exact if_pos hpath

end Numbers

/-! ## Stages that change places -/

/-- Does a stage cut the rows by their number? -/
def Stage.isRowWindow : Stage → Bool
  | .limit _ | .skip _ => true
  | _ => false

namespace Interpretation

open Pipeline

variable {Doc Value : Type*} (I : Interpretation Doc Value) {s : Stage} {f : Expr}
  {a b : List Stage}

/-- The documents after all stages. -/
def results (stages : List Stage) (ds : List Doc) : List Doc :=
  stages.foldl (fun ds s => I.run s ds) ds

lemma results_append (a b : List Stage) (ds : List Doc) :
    I.results (a ++ b) ds = I.results b (I.results a ds) :=
  List.foldl_append ..

lemma holds_conjoin (e f : Expr) (d : Doc) :
    I.holds (conjoin e f) d = (I.holds e d && I.holds f d) := by
  fun_cases conjoin e f with
  | case1 operands => simp [I.holds_and]
  | case2 => simp [I.holds_and]

/-- Two filters one after another keep what both together keep. -/
lemma run_conjoin (e f : Expr) (ds : List Doc) :
    I.run (.filter (conjoin e f)) ds = I.run (.filter f) (I.run (.filter e) ds) := by
  rw [I.run_filter, I.run_filter, I.run_filter, List.filter_filter]
  refine List.filter_congr fun d _ => ?_
  rw [I.holds_conjoin, Bool.and_comm]

lemma run_sort_filter (keys : List SortKey) (hint : Option Nat) (f : Expr) (ds : List Doc) :
    I.run (.sort keys hint) (I.run (.filter f) ds) =
      I.run (.filter f) (I.run (.sort keys hint) ds) := by
  obtain ⟨le, total, -, hsort⟩ := I.run_sort keys hint
  rw [I.run_filter, I.run_filter]
  exact (hsort _).unique total ((hsort ds).filter (I.holds f))

/-- A projection that preserves all that a filter reads does not change whether it holds. -/
lemma holds_project {fields : List (Path × ProjectField)} {project : Doc → Doc}
    (hproject : ∀ d path, Projection.preserves fields path = true →
      I.value (project d) path = I.value d path)
    (h : Transparent f (.project fields)) (d : Doc) : I.holds f (project d) = I.holds f d := by
  refine I.holds_congr fun r hr => ?_
  obtain ⟨path, rfl, hpath⟩ := h r hr
  exact hproject d path hpath

lemma run_project_filter {fields : List (Path × ProjectField)}
    (h : Transparent f (.project fields)) (ds : List Doc) :
    I.run (.project fields) (I.run (.filter f) ds) =
      I.run (.filter f) (I.run (.project fields) ds) := by
  obtain ⟨project, hrun, hproject⟩ := I.run_project fields
  rw [I.run_filter, I.run_filter, hrun, hrun, List.filter_map]
  refine congrArg (List.map project) (List.filter_congr fun d _ => ?_)
  exact (I.holds_project hproject h d).symm

/-- A filter may change places with a stage that lets it through and is no row window. -/
lemma run_filter_comm (h : Transparent f s) (hs : s.isRowWindow = false) (ds : List Doc) :
    I.run s (I.run (.filter f) ds) = I.run (.filter f) (I.run s ds) := by
  cases s with
  | sort keys hint => exact I.run_sort_filter keys hint f ds
  | project fields => exact I.run_project_filter h ds
  | limit n | skip n => cases hs
  | _ => exact h.elim

lemma results_step (h : Step a b) (ha : ∀ s ∈ a, s.isRowWindow = false) (ds : List Doc) :
    I.results b ds = I.results a ds := by
  cases h with
  | merge pre e f post =>
    rw [I.results_append, I.results_append]
    exact congrArg (I.results post) (I.run_conjoin e f _)
  | @pass pre s f post hpass =>
    have hs := ha s (List.mem_append_right pre List.mem_cons_self)
    rw [I.results_append, I.results_append]
    exact congrArg (I.results post) (I.run_filter_comm (transparent_of_canPass hpass) hs _)

end Interpretation

namespace Pipeline

variable {a b : List Stage}

/-- No filter is a row window. -/
lemma isRowWindow_others :
    (∀ s ∈ others a, s.isRowWindow = false) ↔ ∀ s ∈ a, s.isRowWindow = false := by
  constructor
  · intro h s hs
    cases s with
    | filter f => rfl
    | _ => exact h _ (List.mem_filter.2 ⟨hs, rfl⟩)
  · intro h s hs
    exact h s (List.mem_filter.1 hs).1

lemma isRowWindow_step (h : Step a b) (ha : ∀ s ∈ a, s.isRowWindow = false) :
    ∀ s ∈ b, s.isRowWindow = false := by
  rw [← isRowWindow_others, h.others_eq, isRowWindow_others]
  exact ha

/-- In every interpretation, `pushdown` keeps the results of stages among which there is no row
window. -/
theorem pushdown_keeps_results {Doc Value : Type*} (I : Interpretation Doc Value) (p : Pipeline)
    (h : ∀ s ∈ p.stages, s.isRowWindow = false) (ds : List Doc) :
    I.results (Pass.pushdown.optimize p).stages ds = I.results p.stages ds := by
  have hrun {b : List Stage} (hsteps : Steps p.stages b) :
      (∀ s ∈ b, s.isRowWindow = false) ∧ I.results b ds = I.results p.stages ds := by
    induction hsteps with
    | refl => exact ⟨h, rfl⟩
    | tail _ hstep ih =>
      exact ⟨isRowWindow_step hstep ih.1, (I.results_step hstep ih.1 ds).trans ih.2⟩
  exact (hrun (steps_pushdown p.stages)).2

end Pipeline

namespace Numbers

/-- The condition that a field has a value. -/
def equals (name : String) (n : Int) : Expr :=
  .compare .eq (.field { path := ⟨[name]⟩ }) (.lit (.int n))

/-- A filter, a sort and a projection, and a filter that moves all the way to the first. -/
def ranking : Pipeline where
  stages := [.filter (equals "a" 1), .sort [⟨⟨["b"]⟩, .descending⟩] none,
    .project [(⟨["b"]⟩, .keep)], .filter (equals "b" 2)]

theorem ranking_pushed_results :
    (∀ s ∈ ranking.stages, s.isRowWindow = false) ∧
    (Pass.pushdown.optimize ranking).stages =
      [.filter (.logic .and [equals "a" 1, equals "b" 2]), .sort [⟨⟨["b"]⟩, .descending⟩] none,
        .project [(⟨["b"]⟩, .keep)]] ∧
    ∀ ds, interpretation.results (Pass.pushdown.optimize ranking).stages ds =
      interpretation.results ranking.stages ds := by
  have h : ∀ s ∈ ranking.stages, s.isRowWindow = false := by simp [ranking, Stage.isRowWindow]
  exact ⟨h, rfl, Pipeline.pushdown_keeps_results interpretation ranking h⟩

end Numbers

end PipelineSql
