import Mathlib.Order.Monotone.Defs
import PipelineSql.Draft
import PipelineSql.Proofs.FilterMeaning
import PipelineSql.Proofs.RenderingEffects

/-!
# Buckets between boundaries

The key of a bucketing, the test for all of the buckets and the position of a bucket are texts of
their own over the same boundaries. Between ascending integers they describe one partition: a value
that is not below the first boundary and below the last is in one bucket, which is named by the
greatest boundary that is not above the value and has its place in the order of the boundaries.
-/

namespace PipelineSql

/-! ## Ascending boundaries -/

section Ascending

variable {bounds : List Int} {first last v low high : Int} {i j : Nat}

/-- Boundaries ascend with their positions. -/
lemma lt_of_pairwise (h : bounds.Pairwise (· < ·)) (hi : bounds[i]? = some low)
    (hj : bounds[j]? = some high) (hij : i < j) : low < high := by
  obtain ⟨hi', rfl⟩ := List.getElem?_eq_some_iff.1 hi
  obtain ⟨hj', rfl⟩ := List.getElem?_eq_some_iff.1 hj
  exact List.pairwise_iff_getElem.1 h i j hi' hj' hij

/-- Boundaries ascend. -/
lemma le_of_pairwise (h : bounds.Pairwise (· < ·)) (hi : bounds[i]? = some low)
    (hj : bounds[j]? = some high) (hij : i ≤ j) : low ≤ high := by
  rcases Nat.lt_or_eq_of_le hij with hij | rfl
  · exact Int.le_of_lt (lt_of_pairwise h hi hj hij)
  · rw [hi] at hj
    exact Int.le_of_eq (Option.some.inj hj)

/-- The value is between the boundary at a position and the next. -/
def InBucket (bounds : List Int) (v : Int) (i : Nat) : Prop :=
  ∃ low high, bounds[i]? = some low ∧ bounds[i + 1]? = some high ∧ low ≤ v ∧ v < high

/-- No boundary that is not above a value is after the bucket of the value. -/
lemma InBucket.le_of_le (h : InBucket bounds v i) (hasc : bounds.Pairwise (· < ·))
    (hj : bounds[j]? = some low) (hv : low ≤ v) : j ≤ i := by
  obtain ⟨_, high, -, hnext, -, hlt⟩ := h
  by_contra hij
  have := le_of_pairwise hasc hnext hj (Nat.lt_of_not_le hij)
  omega

/-- A value is in one bucket at most. -/
lemma InBucket.unique (h : InBucket bounds v i) (h' : InBucket bounds v j)
    (hasc : bounds.Pairwise (· < ·)) : j = i := by
  obtain ⟨low, _, hlow, -, hle, -⟩ := id h
  obtain ⟨low', _, hlow', -, hle', -⟩ := id h'
  exact Nat.le_antisymm (h.le_of_le hasc hlow' hle') (h'.le_of_le hasc hlow hle)

/-- A value from the first boundary on and before the last is in a bucket. -/
lemma exists_inBucket (hfirst : bounds.head? = some first) (hlast : bounds.getLast? = some last)
    (hle : first ≤ v) (hlt : v < last) : ∃ i, InBucket bounds v i := by
  induction bounds generalizing first with
  | nil => cases hfirst
  | cons low rest ih =>
    obtain rfl : low = first := Option.some.inj hfirst
    cases rest with
    | nil =>
      obtain rfl : low = last := Option.some.inj hlast
      omega
    | cons high rest =>
      by_cases hv : v < high
      · exact ⟨0, low, high, rfl, rfl, hle, hv⟩
      · obtain ⟨i, hi⟩ := ih rfl (by simpa using hlast) (by omega)
        exact ⟨i + 1, hi⟩

/-- A value in a bucket is not below the first boundary and is below the last. -/
lemma InBucket.covered (h : InBucket bounds v i) (hasc : bounds.Pairwise (· < ·))
    (hfirst : bounds.head? = some first) (hlast : bounds.getLast? = some last) :
    first ≤ v ∧ v < last := by
  obtain ⟨low, high, hlow, hhigh, hle, hlt⟩ := h
  rw [List.head?_eq_getElem?] at hfirst
  rw [List.getLast?_eq_getElem?] at hlast
  obtain ⟨hi, -⟩ := List.getElem?_eq_some_iff.1 hhigh
  have := le_of_pairwise hasc hfirst hlow (Nat.zero_le _)
  have := le_of_pairwise hasc hhigh hlast (by omega)
  omega

end Ascending

/-! ## Tests and choices -/

namespace Meaning

variable {α β : Type} [LinearOrder α] {μ : Meaning α} {tests : List Condition} {i : Nat}

/-- Is the test at a position true? -/
def Holds (μ : Meaning α) (tests : List Condition) (i : Nat) : Prop :=
  ∃ c, tests[i]? = some c ∧ μ.truth? c = some (some true)

/-- What is chosen by cases: what stands beside the first test that is true. -/
def chosen (μ : Meaning α) (otherwise : β) : List (Condition × β) → β
  | [] => otherwise
  | (c, x) :: branches => if μ.truth? c = some (some true) then x else μ.chosen otherwise branches

/-- The first test holds if it is true. -/
lemma holds_zero {c : Condition} : μ.Holds (c :: tests) 0 ↔ μ.truth? c = some (some true) := by
  simp [Holds]

/-- A later test holds if it does among the later ones. -/
lemma holds_succ {c : Condition} : μ.Holds (c :: tests) (i + 1) ↔ μ.Holds tests i := by
  simp [Holds]

/-- The one test that is true decides. -/
lemma chosen_of_holds {otherwise x : β} {xs : List β} (hi : μ.Holds tests i)
    (hunique : ∀ j, μ.Holds tests j → j = i) (hx : xs[i]? = some x) :
    μ.chosen otherwise (tests.zip xs) = x := by
  induction tests generalizing xs i with
  | nil =>
    obtain ⟨c, hc, -⟩ := hi
    cases hc
  | cons c tests ih =>
    cases xs with
    | nil => cases hx
    | cons y xs =>
      rw [List.zip_cons_cons, chosen]
      cases i with
      | zero => rw [if_pos (holds_zero.1 hi), Option.some.inj hx]
      | succ i =>
        -- A test before the one that is true would be another one.
        have hc : μ.truth? c ≠ some (some true) := fun hc => by
          have := hunique 0 (holds_zero.2 hc)
          omega
        rw [if_neg hc]
        refine ih (holds_succ.1 hi) (fun j hj => ?_) hx
        have := hunique (j + 1) (holds_succ.2 hj)
        omega

/-- If no test holds, the default is chosen. -/
lemma chosen_of_not_holds {otherwise : β} {xs : List β} (h : ∀ i, ¬μ.Holds tests i) :
    μ.chosen otherwise (tests.zip xs) = otherwise := by
  induction tests generalizing xs with
  | nil => rfl
  | cons c tests ih =>
    cases xs with
    | nil => rfl
    | cons y xs =>
      rw [List.zip_cons_cons, chosen, if_neg (mt holds_zero.2 (h 0))]
      exact ih fun i hi => h (i + 1) (holds_succ.2 hi)

end Meaning

namespace Draft

/-- Is the subject between two integers, the lower included? -/
def rangeTest (subject : Fragment) (low high : Int) : Condition :=
  .both (.relation .gte subject (Fragment.int low)) (.relation .lt subject (Fragment.int high))

/-- The tests of the buckets between boundaries. -/
def bucketTests (subject : Fragment) (bounds : List Int) : List Condition :=
  List.zipWith (rangeTest subject) bounds bounds.tail

/-- The identity of a bucket in place. -/
def bucketIdText (asText : Bool) (l : Literal) : Fragment :=
  if asText && l.isNumeric then Fragment.string l.text else (Token.literal l : Fragment)

/-- The identities of the buckets beside their tests. -/
def idBranches (asText : Bool) (subject : Fragment) (bounds : List Int) :
    List (Condition × Fragment) :=
  (bucketTests subject bounds).zip (bounds.map fun n => bucketIdText asText (.int n))

/-- The ranks of the buckets beside their tests. -/
def rankBranches (subject : Fragment) (bounds : List Int) : List (Condition × Nat) :=
  (bucketTests subject bounds).zip (List.range' 1 (bucketTests subject bounds).length)

/-- The key of a bucketing between integers. -/
def integerKey (bounds : List Int) (default : Option Literal) (asText : Bool) (subject : Fragment) :
    BucketKey where
  id := Fragment.cases ((idBranches asText subject bounds).map fun x => (x.1.fragment, x.2))
    (default.map (bucketIdText asText))
  inRange := rangeTest subject (bounds.headD 0) (bounds.getLastD 0)
  rank := if asText then some (Fragment.call "MIN" [Fragment.cases
      ((rankBranches subject bounds).map fun x => (x.1.fragment, Fragment.int x.2))
      (some (Fragment.int bounds.length))])
    else none

/-! ## The tests are a partition -/

end Draft

section Partition

variable {α : Type} [LinearOrder α] {μ : Meaning α} {subject : Fragment} {bounds : List Int}
  {first last v : Int} {i : Nat}

/-- The text is an integer, and integers have their order. -/
structure Meaning.ReadsInt (μ : Meaning α) (subject : Fragment) (v : Int) : Prop where
  order : ∀ m n : Int, m < n → μ.num (.int m) < μ.num (.int n)
  value : μ.value? subject = some (.number (μ.num (.int v)))

namespace Draft

/-- The test for a range is true of the integers in it and false of all others. -/
lemma truth?_rangeTest (h : μ.ReadsInt subject v) (low high : Int) :
    μ.truth? (rangeTest subject low high) = some (some (decide (low ≤ v ∧ v < high))) := by
  have hint (n : Int) : μ.value? (Fragment.int n) = some (.number (μ.num (.int n))) :=
    μ.written (.int n) _ rfl
  have horder : StrictMono fun n : Int => μ.num (.int n) := fun m n hlt => h.order m n hlt
  have hlow : μ.num (.int low) ≤ μ.num (.int v) ↔ low ≤ v := horder.le_iff_le
  have hhigh : μ.num (.int v) < μ.num (.int high) ↔ v < high := horder.lt_iff_lt
  simp only [rangeTest, Meaning.truth?, Condition.truth?, h.value, hint]
  show some (Truth.both (some (decide (μ.num (.int low) ≤ μ.num (.int v))))
    (some (decide (μ.num (.int v) < μ.num (.int high))))) = _
  rw [decide_eq_decide.2 hlow, decide_eq_decide.2 hhigh, Bool.decide_and]
  cases decide (low ≤ v) <;> cases decide (v < high) <;> rfl

/-- The test of a bucket is true of the values in the bucket. -/
lemma holds_bucketTests (h : μ.ReadsInt subject v) :
    μ.Holds (bucketTests subject bounds) i ↔ InBucket bounds v i := by
  simp only [Meaning.Holds, bucketTests, List.getElem?_zipWith_eq_some, List.getElem?_tail]
  constructor
  · rintro ⟨_, ⟨low, high, hlow, hhigh, rfl⟩, htruth⟩
    rw [truth?_rangeTest h] at htruth
    obtain ⟨hle, hlt⟩ := of_decide_eq_true (Option.some.inj (Option.some.inj htruth))
    exact ⟨low, high, hlow, hhigh, hle, hlt⟩
  · rintro ⟨low, high, hlow, hhigh, hv⟩
    refine ⟨_, ⟨low, high, hlow, hhigh, rfl⟩, ?_⟩
    rw [truth?_rangeTest h, decide_eq_true hv]

end Draft

end Partition

/-! ## What is written in place -/

namespace Render

variable {α β : Type}

/-- With every value in place the computation is a result without an effect. -/
structure InPlace (r : Render α) (a : α) : Prop where
  run : ∀ env, env.inline = true → r.run env = pure a
  exec : ∀ c : Context, c.env.inline = true → r.exec.run c = .ok a c

/-- What is returned at once is in place. -/
lemma inPlace_pure (a : α) : (pure a : Render α).InPlace a :=
  ⟨fun _ _ => rfl, fun _ _ => rfl⟩

/-- What is computed in place from what is in place is so. -/
lemma inPlace_bind {r : Render α} {k : α → Render β} {a : α} {b : β} (hr : r.InPlace a)
    (hk : (k a).InPlace b) : (r >>= k).InPlace b where
  run env h := by
    show (r.run env >>= fun a => (k a).run env) = _
    rw [hr.run env h, pure_bind]
    exact hk.run env h
  exec c h := by
    show EStateM.bind r.exec (fun a => (k a).exec) c = _
    have hfirst : r.exec c = .ok a c := hr.exec c h
    rw [EStateM.bind, hfirst]
    exact hk.exec c h

/-- A literal is written in place. -/
lemma inPlace_literal (l : Literal) : (literal l).InPlace (Token.literal l) := by
  unfold literal
  cases l with
  | null | bool => exact inPlace_pure _
  | _ =>
    refine ⟨fun env h => ?_, fun c h => ?_⟩
    · show (if env.inline = true then _ else _ : Render Fragment).run env = _
      rw [if_pos h]
      rfl
    · show (if c.env.inline = true then _ else _ : Render Fragment).exec.run c = _
      rw [if_pos h]
      rfl

/-- What is computed in place for each element is in place for all. -/
lemma inPlace_mapM {f : α → Render β} {g : α → β} {xs : List α} (h : ∀ x, (f x).InPlace (g x)) :
    (xs.mapM f).InPlace (xs.map g) := by
  rw [← List.mapM'_eq_mapM]
  induction xs with
  | nil => exact inPlace_pure _
  | cons x xs ih => exact inPlace_bind (h x) (inPlace_bind ih (inPlace_pure _))

/-- What is computed in place is so if it is optional. -/
lemma inPlace_optionMapM {f : α → Render β} {g : α → β} {o : Option α}
    (h : ∀ x, (f x).InPlace (g x)) : (o.mapM f).InPlace (o.map g) := by
  cases o with
  | none => exact inPlace_pure _
  | some x => exact inPlace_bind (h x) (inPlace_pure _)

/-- Only what comes first has an effect. After it, values are still written in place. -/
lemma inlined_bind {r : Render α} {k : α → Render β} {f : α → β} {hoists : Prop}
    (hr : ∀ c, r.Faithful hoists c) (h : ∀ a, (k a).InPlace (f a)) :
    inlined (r >>= k) = (do return f (← inlined r)) := by
  refine Render.ext ?_ ?_
  · funext c
    show (Command.inlined (r.exec >>= fun a => (k a).exec)).run c =
      (Command.inlined r.exec >>= fun a => pure (f a)).run c
    have hends : Context.Ends hoists _ _ _ := hr { c with inlineDepth := c.inlineDepth + 1 }
    have hleft := Command.run_inlined r.exec c
    rw [Command.run_inlined]
    simp only [EStateM.run, bind, EStateM.bind] at hends hleft ⊢
    rw [hleft]
    generalize r.run _ _ = x, r.exec { c with inlineDepth := c.inlineDepth + 1 } = y at hends
    cases hends with
    | @ok a e ctes =>
      have hrest := (h a).exec { c with inlineDepth := c.inlineDepth + 1, emission := e, ctes }
        (by simp [Context.env])
      exact congrArg (Command.ending _) hrest
    | error => rfl
  · intro env
    show (r.run { env with inline := true } >>= fun a => (k a).run { env with inline := true }) =
      r.run { env with inline := true } >>= fun a => pure (f a)
    congr 1
    funext a
    exact (h a).run _ rfl

/-- What is made of a result without an effect can be made of it over any row. -/
lemma within_map {r : Render α} (f : α → β) (scope : Scope) :
    within scope (do return f (← r)) = (do return f (← within scope r)) := by
  refine Render.ext ?_ fun _ => rfl
  funext c
  show (Command.within scope (r.exec >>= fun a => pure (f a))).run c =
    (Command.within scope r.exec >>= fun a => pure (f a)).run c
  have hleft := Command.run_within r.exec c scope
  rw [Command.run_within]
  simp only [EStateM.run, bind, EStateM.bind] at hleft ⊢
  rw [hleft]
  cases r.exec { c with scope } <;> rfl

end Render

namespace Draft

open Render

/-- The test for a range has its bounds in place. -/
lemma inPlace_between (subject : Fragment) (low high : Int) :
    (between subject (.int low) (.int high)).InPlace (rangeTest subject low high) :=
  inPlace_bind (inPlace_literal _) (inPlace_bind (inPlace_literal _) (inPlace_pure _))

/-- The id of a bucket is in place. -/
lemma inPlace_bucketId (asText : Bool) (l : Literal) :
    (bucketId asText l).InPlace (bucketIdText asText l) := by
  unfold bucketId bucketIdText
  split
  · exact inPlace_pure _
  · exact inPlace_literal l

/-- The buckets between integers are the tests between them, with their lower boundaries. -/
lemma inPlace_buckets (subject : Fragment) (bounds : List Int) :
    (buckets subject (bounds.map Literal.int)).InPlace
      ((bucketTests subject bounds).zip (bounds.map Literal.int)) := by
  induction bounds with
  | nil => exact inPlace_pure _
  | cons low rest ih =>
    cases rest with
    | nil => exact inPlace_pure _
    | cons high rest =>
      exact inPlace_bind (inPlace_between subject low high) (inPlace_bind ih (inPlace_pure _))

/-- Between integers the key of a bucketing depends on the text of the subject only. -/
lemma bucketKey_eq_integerKey {spec : Bucket} {bounds : List Int}
    (hbounds : spec.boundaries = bounds.map Literal.int) (hne : bounds ≠ []) (asText : Bool) :
    bucketKey spec true asText = (do
      return integerKey bounds spec.default asText
        (← inlined (spec.groupBy.typed .number))) := by
  -- All that follows the subject writes constants in place, and so has no effect.
  refine inlined_bind (Request.typed spec.groupBy .number).faithful_render fun subject => ?_
  rw [hbounds]
  refine inPlace_bind (inPlace_buckets subject bounds) ?_
  refine inPlace_bind (inPlace_mapM fun x => inPlace_bind (inPlace_bucketId asText x.2)
    (inPlace_pure (x.1.fragment, bucketIdText asText x.2))) ?_
  refine inPlace_bind (inPlace_optionMapM fun l => inPlace_bucketId asText l) ?_
  have hfirst : (bounds.map Literal.int).headD .null = .int (bounds.headD 0) := by
    cases bounds with
    | nil => exact absurd rfl hne
    | cons low rest => rfl
  have hlast : (bounds.map Literal.int).getLastD .null = .int (bounds.getLastD 0) := by
    rw [List.getLastD_eq_getLast?, List.getLastD_eq_getLast?, List.getLast?_map,
      List.getLast?_eq_some_getLast hne]
    rfl
  have hids : ((bucketTests subject bounds).zip (bounds.map Literal.int)).map
      (fun x => (x.1.fragment, bucketIdText asText x.2)) =
        (idBranches asText subject bounds).map fun x => (x.1.fragment, x.2) := by
    simp [idBranches, List.zip_map_right]
  have htests : ((bucketTests subject bounds).zip (bounds.map Literal.int)).map Prod.fst =
      bucketTests subject bounds :=
    List.map_fst_zip (by simp [bucketTests])
  rw [hfirst, hlast, hids, htests]
  refine inPlace_bind (inPlace_between subject _ _) ?_
  have hkey := inPlace_pure (integerKey bounds spec.default asText subject)
  simpa [integerKey, bucketRank, rankBranches] using hkey

/-- Bucketing between integers. -/
lemma bucketStage_eq_integerKey (b : Draft) {spec : Bucket} {bounds : List Int}
    (hbounds : spec.boundaries = bounds.map Literal.int) (hne : bounds ≠ []) {asText : Bool}
    (hasText : asText = spec.default.any fun l => !l.isNull && !l.isNumeric) :
    b.bucketStage spec = (do
      let b ← b.groupingReady
      if asText then warn .bucketIds
      let subject ← b.render (inlined (spec.groupBy.typed .number))
      let key := integerKey bounds spec.default asText subject
      let columns ← b.render (bucketColumns "$bucket" spec.outputs)
      return (if spec.default.isNone then b.filter key.inRange else b).bucketed key columns) := by
  have hnumeric : spec.boundaries.all Literal.isNumeric = true := by
    rw [hbounds, List.all_map]
    exact List.all_eq_true.2 fun _ _ => rfl
  subst hasText
  have hrender (b : Draft) (asText : Bool) : b.render (bucketKey spec true asText) = (do
      return integerKey bounds spec.default asText
        (← b.render (inlined (spec.groupBy.typed .number)))) := by
    rw [bucketKey_eq_integerKey hbounds hne]
    exact within_map ..
  simp only [bucketStage, hnumeric, hrender, Bool.bne_true, bind_assoc, pure_bind]

/-- Bucketing between ascending integers.

The stage groups by a choice by cases, keeps the rows in range if there is no default, and sorts by
rank where identities are text. Wherever the text of the subject is an integer, exactly one test is
true of a value from the first boundary on and before the last: the one at the greatest boundary that
is not above it. That boundary is the identity, and the rank is its place. No test is true of any
other value, which so has the default and a rank after all others. -/
theorem bucket_tests_partition (b : Draft) (spec : Bucket) (bounds : List Int) {first last : Int}
    (hbounds : spec.boundaries = bounds.map Literal.int) (hasc : bounds.Pairwise (· < ·))
    (hfirst : bounds.head? = some first) (hlast : bounds.getLast? = some last) {asText : Bool}
    (hasText : asText = spec.default.any fun l => !l.isNull && !l.isNumeric) :
    b.bucketStage spec = (do
      let b ← b.groupingReady
      if asText then warn .bucketIds
      let subject ← b.render (inlined (spec.groupBy.typed .number))
      let key := integerKey bounds spec.default asText subject
      let columns ← b.render (bucketColumns "$bucket" spec.outputs)
      return (if spec.default.isNone then b.filter key.inRange else b).bucketed key columns) ∧
    ∀ (α : Type) [LinearOrder α] (μ : Meaning α) (subject : Fragment) (v : Int),
      μ.ReadsInt subject v →
      (μ.truth? (integerKey bounds spec.default asText subject).inRange =
        some (some (decide (first ≤ v ∧ v < last)))) ∧
      (first ≤ v ∧ v < last → ∃ i low,
        μ.Holds (bucketTests subject bounds) i ∧
        (∀ j, μ.Holds (bucketTests subject bounds) j → j = i) ∧
        bounds[i]? = some low ∧ low ≤ v ∧ (∀ n ∈ bounds, n ≤ v → n ≤ low) ∧
        (∀ otherwise, μ.chosen otherwise (idBranches asText subject bounds) =
          if asText then Fragment.string (toString low) else Fragment.int low) ∧
        μ.chosen bounds.length (rankBranches subject bounds) = i + 1 ∧ i + 1 < bounds.length) ∧
      (¬(first ≤ v ∧ v < last) →
        (∀ i, ¬μ.Holds (bucketTests subject bounds) i) ∧
        (∀ otherwise, μ.chosen otherwise (idBranches asText subject bounds) = otherwise) ∧
        μ.chosen bounds.length (rankBranches subject bounds) = bounds.length) := by
  have hne : bounds ≠ [] := by
    rintro rfl
    cases hfirst
  refine ⟨bucketStage_eq_integerKey b hbounds hne hasText, fun α _ μ subject v hreads => ?_⟩
  refine ⟨?_, fun hv => ?_, fun hv => ?_⟩
  · have hends : bounds.headD 0 = first ∧ bounds.getLastD 0 = last := by
      rw [List.headD_eq_head?_getD, List.getLastD_eq_getLast?, hfirst, hlast]
      exact ⟨rfl, rfl⟩
    rw [integerKey, hends.1, hends.2]
    exact truth?_rangeTest hreads first last
  · obtain ⟨i, hi⟩ := exists_inBucket hfirst hlast hv.1 hv.2
    have hholds := (holds_bucketTests hreads).2 hi
    have hunique (j : Nat) (hj : μ.Holds (bucketTests subject bounds) j) : j = i :=
      hi.unique ((holds_bucketTests hreads).1 hj) hasc
    obtain ⟨low, high, hlow, hhigh, hle, hlt⟩ := id hi
    refine ⟨i, low, hholds, hunique, hlow, hle, ?_, ?_, ?_, ?_⟩
    · intro n hn hnv
      obtain ⟨j, hj⟩ := List.mem_iff_getElem?.1 hn
      exact le_of_pairwise hasc hj hlow (hi.le_of_le hasc hj hnv)
    · intro otherwise
      refine Meaning.chosen_of_holds hholds hunique ?_
      rw [List.getElem?_map, hlow]
      cases asText <;> rfl
    · refine Meaning.chosen_of_holds hholds hunique ?_
      obtain ⟨c, hc, -⟩ := hholds
      rw [List.getElem?_range' (List.getElem?_eq_some_iff.1 hc).1]
      exact congrArg some (by omega)
    · exact (List.getElem?_eq_some_iff.1 hhigh).1
  · have hnone (i : Nat) (hi : μ.Holds (bucketTests subject bounds) i) : False :=
      hv (((holds_bucketTests hreads).1 hi).covered hasc hfirst hlast)
    exact ⟨hnone, fun _ => Meaning.chosen_of_not_holds hnone, Meaning.chosen_of_not_holds hnone⟩

/-- Tens, and the rest as text. -/
def tens : Bucket where
  groupBy := .field { path := .ofString "n" }
  boundaries := [.int 0, .int 10, .int 20]
  default := some (.string "other")
  outputs := []

/-- The field `n` of a stored document. -/
def fieldN : Fragment :=
  Fragment.column baseAlias "data" ++ Fragment.ofToken (.step "n") ++ Fragment.text ".number()"

/-- A row with 15 at `n`. -/
def fifteen : Meaning Int :=
  (storedRow (.obj [("n", .num (.int 15))])).meaning

/-- A value of 15 is in the second of the buckets. -/
theorem tens_hold_fifteen :
    fifteen.truth? (integerKey [0, 10, 20] tens.default true fieldN).inRange = some (some true) ∧
    fifteen.Holds (bucketTests fieldN [0, 10, 20]) 1 ∧
    (∀ j, fifteen.Holds (bucketTests fieldN [0, 10, 20]) j → j = 1) ∧
    fifteen.chosen (Fragment.string "other") (idBranches true fieldN [0, 10, 20]) =
      Fragment.string "10" ∧
    fifteen.chosen 3 (rankBranches fieldN [0, 10, 20]) = 2 := by
  have hreads : fifteen.ReadsInt fieldN 15 := ⟨fun _ _ h => h, rfl⟩
  have hsecond : fifteen.Holds (bucketTests fieldN [0, 10, 20]) 1 := ⟨_, rfl, rfl⟩
  obtain ⟨-, hpartition⟩ := bucket_tests_partition storedRows tens [0, 10, 20] rfl (by decide) rfl
    rfl rfl
  obtain ⟨hrange, hcovered, -⟩ := hpartition Int fifteen fieldN 15 hreads
  obtain ⟨i, low, -, hunique, hlow, -, -, hid, hrank, -⟩ := hcovered (by decide)
  obtain rfl := hunique 1 hsecond
  cases hlow
  exact ⟨hrange, hsecond, hunique, hid _, hrank⟩

end Draft

end PipelineSql
