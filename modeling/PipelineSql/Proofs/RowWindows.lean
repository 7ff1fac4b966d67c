import PipelineSql.Proofs.ClauseOrder
import PipelineSql.Proofs.Fixpoint
import PipelineSql.Proofs.Reading
import PipelineSql.Proofs.Relation.Faithful
import Mathlib.Algebra.Order.BigOperators.Group.List

/-!
# Sorts and row windows compile alike when fused

Limits, skips and sorts only set the last clauses of the query under construction. So it makes no
difference to a draft whether a run of one kind comes as several stages or as one, or whether a sort
knows beforehand how many of its rows are needed.

Main result: a pipeline as it is read and the same pipeline with its sorts and row windows fused
have the same statement and emission, or the same error, as long as the skips and any one limit add
up to a 64-bit count.
-/

namespace PipelineSql

namespace Render

variable {α β : Type} {hoists : Prop} {r : Render α}

/-- What follows a faithful computation only counts for what that yields. -/
lemma bind_congr_of_yields {P : α → Prop} {k k' : α → Render β} (hr : ∀ c, r.Faithful hoists c)
    (hyields : ∀ env, r.Yields env P) (hk : ∀ a, P a → k a = k' a) : r >>= k = r >>= k' := by
  refine Render.ext ?_ fun env => ?_
  · funext c
    show EStateM.bind r.exec (fun a => (k a).exec) c = EStateM.bind r.exec (fun a => (k' a).exec) c
    have hends : c.Ends hoists _ _ := hr c
    have hvalue := @hyields c.env c.emission
    simp only [EStateM.bind, EStateM.run] at hends hvalue ⊢
    generalize r.run c.env c.emission = x, r.exec c = y at hends hvalue
    cases hends with
    | ok =>
      dsimp only
      rw [hk _ (hvalue rfl)]
    | error => rfl
  · funext e
    show EStateM.bind (r.run env) (fun a => (k a).run env) e =
      EStateM.bind (r.run env) (fun a => (k' a).run env) e
    simp only [EStateM.bind]
    split
    · next a e' ha => rw [hk a (hyields env ha)]
    · rfl

/-- After a faithful computation the stage is still the same. -/
lemma inStage_bind {k : α → Render β} (hr : ∀ c, r.Faithful hoists c) (stage : Option String) :
    inStage stage (r >>= k) = inStage stage r >>= fun a => inStage stage (k a) := by
  refine Render.ext ?_ fun _ => rfl
  funext c
  show (Command.inStage stage (r.exec >>= fun a => (k a).exec)).run c =
    (Command.inStage stage r.exec >>= fun a => Command.inStage stage (k a).exec).run c
  have hends : Context.Ends hoists _ _ _ := hr { c with stage }
  have hfirst := Command.run_inStage r.exec c stage
  rw [Command.run_inStage]
  simp only [EStateM.run, bind, EStateM.bind] at hends hfirst ⊢
  rw [hfirst]
  generalize r.run _ _ = x, r.exec { c with stage } = y at hends
  cases hends with
  | @ok a e ctes => exact (Command.run_inStage (k a).exec { c with emission := e, ctes } stage).symm
  | error => rfl

end Render

namespace Draft

open Render

variable {b : Draft} {env : Env} {keys keys' : List SortKey} {hint hint' : Option Nat} {m n : Nat}
  {rest rest' : List Stage}

/-! ## Row windows of a draft -/

lemma limitStage_limitStage (b : Draft) (m n : Nat) :
    (b.limitStage m).limitStage n = b.limitStage (min m n) := by
  unfold limitStage
  cases b.query.rows.limit with
  | none => rfl
  | some k => simp [min_assoc]

lemma skipStage_skipStage (b : Draft) (m n : Nat) :
    (b.skipStage m).skipStage n = b.skipStage (m + n) := by
  unfold skipStage
  cases b.query.rows.limit with
  | none => simp [Nat.add_assoc]
  | some k => simp [Nat.add_assoc, Nat.sub_sub]

/-- The draft with its rows sorted, and cut to as many as are needed. -/
def sorted (b : Draft) (env : Env) (keys : List SortKey) (hint : Option Nat) : Draft :=
  { b with
    query := { b.query with
      orderBy := (orderTerms env b.scope keys true).1
      rows := { b.query.rows with limit := hint.or b.query.rows.limit } }
    sortedByAlias := (orderTerms env b.scope keys true).2
    ordering := keys }

/-- A sort replaces the sort before it. -/
lemma sorted_sorted (b : Draft) (env env' : Env) (keys keys' : List SortKey) (hint : Option Nat) :
    (b.sorted env keys none).sorted env' keys' hint = b.sorted env' keys' hint := by
  simp [sorted]

lemma limit_eq_none (h : b.query.rows.isLimited = false) : b.query.rows.limit = none := by
  simp only [RowWindow.isLimited, Bool.or_eq_false_iff, Option.isSome_eq_false_iff,
    Option.isNone_iff_eq_none] at h
  exact h.1

/-- A sort that is cut to the rows of the limit after it. -/
lemma limitStage_sorted (h : b.query.rows.isLimited = false) (n : Nat) :
    (b.sorted env keys (some n)).limitStage n = (b.sorted env keys none).limitStage n := by
  simp [sorted, limitStage, limit_eq_none h]

/-- A sort that is cut to the rows of the skip and the limit after it. -/
lemma limitStage_skipStage_sorted (h : b.query.rows.isLimited = false) (m n : Nat) :
    ((b.sorted env keys (some (m + n))).skipStage m).limitStage n =
      ((b.sorted env keys none).skipStage m).limitStage n := by
  simp [sorted, skipStage, limitStage, limit_eq_none h]

/-! ## Runs of stages -/

lemma stages_append (a c : List Stage) (b : Draft) :
    stages (a ++ c) b = stages a b >>= stages c := by
  induction a generalizing b with
  | nil => rw [List.nil_append, stages, pure_bind]
  | cons s a ih =>
    rw [List.cons_append, stages, stages, bind_assoc]
    exact bind_congr fun b₁ => ih b₁

/-- Stages in front do not tell runs apart. -/
lemma stages_append_congr (h : ∀ b, stages rest b = stages rest' b) (pre : List Stage) (b : Draft) :
    stages (pre ++ rest) b = stages (pre ++ rest') b := by
  rw [stages_append, stages_append]
  exact bind_congr fun b₁ => h b₁

lemma stages_limit (n : Nat) (rest : List Stage) (b : Draft) :
    stages (.limit n :: rest) b = stages rest (b.limitStage n) := by
  rw [stages, stage]
  rfl

lemma stages_skip (n : Nat) (rest : List Stage) (b : Draft) :
    stages (.skip n :: rest) b = stages rest (b.skipStage n) := by
  rw [stages, stage]
  rfl

/-- Wrapping hands out an alias, and leaves the context as it is besides. -/
lemma faithful_uncut (b : Draft) (c : Context) : b.uncut.Faithful False c := by
  unfold uncut wrapIf
  split
  · unfold wrap wrapAs finish
    refine .bind (.bind (.newAlias _) fun _ _ _ _ => .bind (.bind .ask fun _ _ _ _ => .pure _)
      fun _ _ _ _ => .bind .ask fun _ _ _ _ => .pure _) fun outer _ _ _ => ?_
    dsimp only
    split
    · exact .pure _
    · exact .bind .ask fun _ _ _ _ => .pure _
  · exact .pure b

/-- The stages after a sort go on from a draft that is sorted. -/
lemma stages_sort (b : Draft) (keys : List SortKey) (hint : Option Nat) (rest : List Stage) :
    stages (.sort keys hint :: rest) b =
      (inStage (some "$sort") b.uncut >>= fun b₁ => inStage (some "$sort") read >>= fun env =>
        stages rest (b₁.sorted env keys hint)) := by
  have hstage : stage (.sort keys hint) b =
      b.uncut >>= fun b₁ => read >>= fun env => pure (b₁.sorted env keys hint) := by
    rw [stage]
    rfl
  rw [stages, Stage.name, hstage, inStage_bind (faithful_uncut b), bind_assoc]
  rfl

lemma yields_notCut (b : Draft) (env : Env) : (inStage (some "$sort") b.uncut).Yields env fun b₁ =>
    b₁.query.rows.isLimited = false := by
  intro e b₁ e' hrun
  exact (yields_uncut b hrun).takes.notCut

/-- Runs from a sort are the same if they are from where it ends. -/
lemma stages_sort_congr
    (h : ∀ b₁ : Draft, b₁.query.rows.isLimited = false → ∀ env,
      stages rest (b₁.sorted env keys hint) = stages rest' (b₁.sorted env keys' hint')) :
    stages (.sort keys hint :: rest) b = stages (.sort keys' hint' :: rest') b := by
  rw [stages_sort, stages_sort]
  refine bind_congr_of_yields (fun c => .inStage (faithful_uncut b _)) (yields_notCut b)
    fun b₁ h₁ => ?_
  exact bind_congr fun env => h b₁ h₁ env

lemma stages_sort_limit (keys : List SortKey) (n : Nat) (rest : List Stage) (b : Draft) :
    stages (.sort keys (some n) :: .limit n :: rest) b =
      stages (.sort keys none :: .limit n :: rest) b := by
  refine stages_sort_congr fun b₁ h₁ env => ?_
  rw [stages_limit, stages_limit, limitStage_sorted h₁]

lemma stages_sort_skip_limit (keys : List SortKey) (m n : Nat) (rest : List Stage) (b : Draft) :
    stages (.sort keys (some (m + n)) :: .skip m :: .limit n :: rest) b =
      stages (.sort keys none :: .skip m :: .limit n :: rest) b := by
  refine stages_sort_congr fun b₁ h₁ env => ?_
  rw [stages_skip, stages_limit, stages_skip, stages_limit, limitStage_skipStage_sorted h₁]

/-- A sort is lost if another follows. -/
lemma stages_sort_sort (keys keys' : List SortKey) (hint : Option Nat) (rest : List Stage)
    (b : Draft) :
    stages (.sort keys none :: .sort keys' hint :: rest) b =
      stages (.sort keys' hint :: rest) b := by
  rw [stages_sort, stages_sort]
  refine bind_congr_of_yields (fun c => .inStage (faithful_uncut b _)) (yields_notCut b)
    fun b₁ h₁ => ?_
  have hcut (env : Env) : (b₁.sorted env keys none).uncut = pure (b₁.sorted env keys none) := by
    have hrows : (b₁.sorted env keys none).query.rows.isLimited = b₁.query.rows.isLimited := rfl
    rw [uncut, wrapIf, hrows, h₁]
    rfl
  have hpure (b : Draft) : inStage (some "$sort") (pure b) = pure b := rfl
  simp only [stages_sort, hcut, hpure, pure_bind, sorted_sorted]
  rfl

end Draft

/-! ## Counts and hints -/

/-- How many of its first documents a stage is known to need. -/
def Stage.hint? : Stage → Option Nat
  | .sort _ hint => hint
  | _ => none

namespace Pipeline

/-- The documents that a stage skips. -/
def skipCount : Stage → Nat
  | .skip n => n
  | _ => 0

/-- The documents that all stages skip. -/
def skipTotal (stages : List Stage) : Nat :=
  (stages.map skipCount).sum

/-- Do the skips of stages, and with them any of their limits, add up to a 64-bit count? -/
structure Countable (stages : List Stage) : Prop where
  skips : skipTotal stages < wordCount
  limits : ∀ n, .limit n ∈ stages → skipTotal stages + n < wordCount

/-- Does no sort know how many of its documents are needed? -/
def Unhinted (stages : List Stage) : Prop :=
  ∀ s ∈ stages, s.hint? = none

variable {a b stages rest : List Stage} {s t : Stage} {m n : Nat}

@[simp] lemma skipTotal_cons (s : Stage) (rest : List Stage) :
    skipTotal (s :: rest) = skipCount s + skipTotal rest :=
  List.sum_cons

@[simp] lemma skipTotal_append (a b : List Stage) :
    skipTotal (a ++ b) = skipTotal a + skipTotal b := by
  simp [skipTotal]

lemma addCounts_eq (h : m + n < wordCount) : addCounts m n = m + n :=
  min_eq_left (Nat.le_sub_one_of_lt h)

lemma Countable.sublist (h : Countable b) (hsub : a.Sublist b) : Countable a := by
  have hle : skipTotal a ≤ skipTotal b :=
    (hsub.map skipCount).sum_le_sum fun _ _ => Nat.zero_le _
  refine ⟨hle.trans_lt h.skips, fun n hn => ?_⟩
  exact (Nat.add_le_add_right hle n).trans_lt (h.limits n (hsub.subset hn))

lemma Countable.tail (h : Countable (s :: rest)) : Countable rest :=
  h.sublist (List.sublist_cons_self s rest)

/-! ## Neighbours of one kind -/

/-- Two limits, skips or sorts that are neighbours become one. -/
inductive Fuse : List Stage → List Stage → Prop where
  | limits (pre : List Stage) (m n : Nat) (post : List Stage) :
    Fuse (pre ++ .limit m :: .limit n :: post) (pre ++ .limit (min m n) :: post)
  | skips (pre : List Stage) (m n : Nat) (post : List Stage) :
    Fuse (pre ++ .skip m :: .skip n :: post) (pre ++ .skip (addCounts m n) :: post)
  | sorts (pre : List Stage) (keys : List SortKey) (known : Option Nat) (keys' : List SortKey)
    (hint : Option Nat) (post : List Stage) :
    Fuse (pre ++ .sort keys known :: .sort keys' hint :: post) (pre ++ .sort keys' hint :: post)

lemma fuses_absorb (acc : List Stage) (t : Stage) (todo : List Stage) :
    Relation.ReflTransGen Fuse (acc.reverse ++ t :: todo) ((absorb acc t).reverse ++ todo) := by
  fun_cases absorb acc t with
  | case1 m rest n => simpa using .single (.limits rest.reverse m n todo)
  | case2 m rest n => simpa using .single (.skips rest.reverse m n todo)
  | case3 keys known rest keys' hint =>
    simpa using .single (.sorts rest.reverse keys known keys' hint todo)
  | case4 => simpa using .refl

lemma fuses_foldl (acc todo : List Stage) :
    Relation.ReflTransGen Fuse (acc.reverse ++ todo) (todo.foldl absorb acc).reverse := by
  induction todo generalizing acc with
  | nil => simpa using .refl
  | cons t todo ih => exact (fuses_absorb acc t todo).trans (ih (absorb acc t))

lemma fuses_collapse (stages : List Stage) : Relation.ReflTransGen Fuse stages (collapse stages) :=
  fuses_foldl [] stages

namespace Fuse

/-- The sum of two skips that are neighbours is a 64-bit count. -/
lemma add_lt {pre post : List Stage} (h : Countable (pre ++ .skip m :: .skip n :: post)) :
    m + n < wordCount := by
  have hskips := h.skips
  simp only [skipTotal_append, skipTotal_cons, skipCount] at hskips
  omega

lemma skipTotal_eq (h : Fuse a b) (ha : Countable a) : skipTotal b = skipTotal a := by
  cases h with
  | limits => simp [skipCount]
  | skips pre m n post => simp [skipCount, addCounts_eq (add_lt ha), Nat.add_assoc]
  | sorts => simp [skipCount]

lemma countable (h : Fuse a b) (ha : Countable a) : Countable b := by
  have htotal := h.skipTotal_eq ha
  refine ⟨htotal ▸ ha.skips, fun k hk => htotal ▸ ?_⟩
  cases h with
  | limits pre m n post =>
    simp only [List.mem_append, List.mem_cons, Stage.limit.injEq] at hk
    rcases hk with hk | rfl | hk
    · exact ha.limits k (by simp [hk])
    · have hm := ha.limits m (by simp)
      exact (Nat.add_le_add_left (min_le_left m n) _).trans_lt hm
    · exact ha.limits k (by simp [hk])
  | skips pre m n post => exact ha.limits k (by simpa using hk)
  | sorts pre keys known keys' hint post => exact ha.limits k (by simpa using hk)

lemma unhinted (h : Fuse a b) (ha : Unhinted a) : Unhinted b := by
  cases h with
  | limits pre m n post | skips pre m n post =>
    simp only [Unhinted, List.forall_mem_append, List.forall_mem_cons] at ha ⊢
    exact ⟨ha.1, rfl, ha.2.2.2⟩
  | sorts pre keys known keys' hint post =>
    simp only [Unhinted, List.forall_mem_append, List.forall_mem_cons] at ha ⊢
    exact ⟨ha.1, ha.2.2⟩

/-- A draft is the same after one stage as after the two. -/
lemma stages_eq (h : Fuse a b) (ha : Countable a) (hu : Unhinted a) (d : Draft) :
    Draft.stages b d = Draft.stages a d := by
  cases h with
  | limits pre m n post =>
    refine Draft.stages_append_congr (fun d => ?_) pre d
    rw [Draft.stages_limit, Draft.stages_limit, Draft.stages_limit, Draft.limitStage_limitStage]
  | skips pre m n post =>
    refine Draft.stages_append_congr (fun d => ?_) pre d
    rw [Draft.stages_skip, Draft.stages_skip, Draft.stages_skip, Draft.skipStage_skipStage,
      addCounts_eq (add_lt ha)]
  | sorts pre keys known keys' hint post =>
    obtain rfl : known = none := hu (.sort keys known) (by simp)
    exact Draft.stages_append_congr
      (fun d => (Draft.stages_sort_sort keys keys' hint post d).symm) pre d

end Fuse

/-- Runs of one kind made one leave what is asked of stages, and every draft after them. -/
lemma stages_collapse (hc : Countable stages) (hu : Unhinted stages) :
    Countable (collapse stages) ∧ Unhinted (collapse stages) ∧
      ∀ d, Draft.stages (collapse stages) d = Draft.stages stages d := by
  have hfuses := fuses_collapse stages
  generalize collapse stages = b at hfuses
  induction hfuses with
  | refl => exact ⟨hc, hu, fun _ => rfl⟩
  | tail _ hfuse ih =>
    obtain ⟨hc', hu', heq⟩ := ih
    refine ⟨hfuse.countable hc', hfuse.unhinted hu', fun d => ?_⟩
    exact (hfuse.stages_eq hc' hu' d).trans (heq d)

/-! ## Hints -/

/-- A sort that knows what the stages after it need leaves the draft after these as it is. -/
lemma stages_sort_needed (hc : Countable rest) (keys : List SortKey) (d : Draft) :
    Draft.stages (.sort keys (needed? rest) :: rest) d =
      Draft.stages (.sort keys none :: rest) d := by
  fun_cases needed? rest with
  | case1 n rest => exact Draft.stages_sort_limit keys n rest d
  | case2 m n rest =>
    have hadd : m + n < wordCount := by
      have hlimit := hc.limits n (by simp)
      simp only [skipTotal_cons, skipCount] at hlimit
      omega
    rw [addCounts_eq hadd]
    exact Draft.stages_sort_skip_limit keys m n rest d
  | case3 => rfl

lemma stages_hint (hc : Countable stages) (hu : Unhinted stages) (d : Draft) :
    Draft.stages (hint stages) d = Draft.stages stages d := by
  fun_induction hint stages generalizing d with
  | case1 => rfl
  | case2 keys known rest ih =>
    obtain ⟨hknown, hrest⟩ := List.forall_mem_cons.1 hu
    obtain rfl : known = none := hknown
    rw [Option.or_none, ← stages_sort_needed hc.tail]
    exact Draft.stages_append_congr (ih hc.tail hrest) [_] d
  | case3 s rest hs ih =>
    obtain ⟨-, hrest⟩ := List.forall_mem_cons.1 hu
    exact Draft.stages_append_congr (ih hc.tail hrest) [s] d

/-- Every draft is the same after stages and after the same stages fused. -/
lemma stages_fusion (hc : Countable stages) (hu : Unhinted stages) (d : Draft) :
    Draft.stages (fusion stages) d = Draft.stages stages d := by
  obtain ⟨hc', hu', heq⟩ := stages_collapse hc hu
  exact (stages_hint hc' hu' d).trans (heq d)

/-! ## The stage that writes -/

lemma Alike.not_terminal (h : Alike s t) : t.isTerminal = false := by
  cases h <;> rfl

lemma Like.isTerminal_eq (h : Like s t) : s.isTerminal = t.isTerminal := by
  rcases h with rfl | h
  · rfl
  · rw [h.not_terminal, h.symm.not_terminal]

lemma splitTerminal_concat (init : List Stage) (s : Stage) :
    splitTerminal (init ++ [s]) =
      if s.isTerminal then (init, some s) else (init ++ [s], none) := by
  simp [splitTerminal]

/-- The last stage stays in its place, but for the count, the hint or the keys of a row window or
sort. -/
lemma exists_fusion_concat (a : List Stage) (s : Stage) :
    ∃ b t, fusion (a ++ [s]) = b ++ [t] ∧ Like s t := by
  obtain ⟨acc, u, hcollapse, hu⟩ : ∃ acc u, collapse (a ++ [s]) = acc ++ [u] ∧ Like s u := by
    rw [collapse, List.foldl_append, List.foldl_cons, List.foldl_nil]
    obtain ⟨he, -⟩ | ⟨r, u, rest, -, he, -, hu⟩ := absorb_cases (a.foldl absorb []) s
    · exact ⟨_, s, by rw [he, List.reverse_cons], .inl rfl⟩
    · exact ⟨rest.reverse, u, by rw [he, List.reverse_cons], .inr hu.symm⟩
  have hlike := List.rel_reverse (like_hint (acc ++ [u]))
  rw [List.reverse_append, List.reverse_singleton, List.singleton_append] at hlike
  obtain ⟨t, rest, ht, -, he⟩ := List.forall₂_cons_left_iff.1 hlike
  refine ⟨rest.reverse, t, ?_, ?_⟩
  · rw [fusion, hcollapse, ← List.reverse_cons, ← he, List.reverse_reverse]
  · rcases hu with rfl | hu <;> rcases ht with rfl | ht
    · exact .inl rfl
    · exact .inr ht
    · exact .inr hu
    · exact .inr (hu.trans ht)

lemma needed?_concat (hs : s.isTerminal = true) (rest : List Stage) :
    needed? (rest ++ [s]) = needed? rest := by
  rcases rest with _ | ⟨r, _ | ⟨r', rest⟩⟩
  · cases s <;> first | rfl | cases hs
  · cases r with
    | skip m => cases s <;> first | rfl | cases hs
    | _ => rfl
  · cases r with
    | skip m => cases r' <;> rfl
    | _ => rfl

lemma hint_concat (hs : s.isTerminal = true) (a : List Stage) :
    hint (a ++ [s]) = hint a ++ [s] := by
  fun_induction hint a with
  | case1 => cases s <;> rfl
  | case2 keys known rest ih => rw [List.cons_append, hint, needed?_concat hs, ih, List.cons_append]
  | case3 r rest hr ih => rw [List.cons_append, hint.eq_3 _ _ hr, ih, List.cons_append]

/-- A stage that writes stays behind the others. -/
lemma fusion_concat (hs : s.isTerminal = true) (a : List Stage) :
    fusion (a ++ [s]) = fusion a ++ [s] := by
  have hlast : absorb (a.foldl absorb []) s = s :: a.foldl absorb [] := by
    refine absorb_of_not_alike _ s fun r _ h => ?_
    rw [h.not_terminal] at hs
    cases hs
  have hcollapse : collapse (a ++ [s]) = collapse a ++ [s] := by
    rw [collapse, List.foldl_append, List.foldl_cons, List.foldl_nil, hlast, List.reverse_cons]
    rfl
  rw [fusion, hcollapse, hint_concat hs]
  rfl

/-- Fusion concerns the stages before the one that writes. -/
lemma splitTerminal_fusion (stages : List Stage) :
    splitTerminal (fusion stages) =
      (fusion (splitTerminal stages).1, (splitTerminal stages).2) := by
  rcases List.eq_nil_or_concat stages with rfl | ⟨a, s, rfl⟩
  · rfl
  · cases hs : s.isTerminal with
    | true => simp [fusion_concat hs, splitTerminal_concat, hs]
    | false =>
      obtain ⟨b, t, he, hlike⟩ := exists_fusion_concat a s
      have ht : t.isTerminal = false := hlike.isTerminal_eq.symm.trans hs
      simp [splitTerminal_concat, hs, he, ht]

lemma splitTerminal_sublist (stages : List Stage) : (splitTerminal stages).1.Sublist stages := by
  unfold splitTerminal
  split
  · exact .refl stages
  · split
    · exact List.dropLast_sublist stages
    · exact .refl stages

/-- The statement of a pipeline is that of the pipeline with its sorts and row windows fused. -/
lemma statement_fusion {p : Pipeline} (hc : Countable p.stages) (hu : Unhinted p.stages)
    (t : Target) : (Pass.fusion.optimize p).statement t = p.statement t := by
  have hsub := splitTerminal_sublist p.stages
  have hu' : Unhinted (splitTerminal p.stages).1 := fun s hs => hu s (hsub.subset hs)
  have hsplit : splitTerminal (Pass.fusion.optimize p).stages =
      (fusion (splitTerminal p.stages).1, (splitTerminal p.stages).2) :=
    splitTerminal_fusion p.stages
  rw [statement, statement, hsplit]
  refine bind_congr fun base => ?_
  rw [stages_fusion (hc.sublist hsub) hu']
  rfl

/-! ## Stages as they are read -/

open Result in
lemma ensures_hint?_none (name : String) (spec : Phrase) :
    Grants (Grammar.stageNamed name spec) fun s => s.hint? = none := by
  -- Every way through a rule ends in an error or in the stage that the rule builds.
  fun_cases Grammar.stageNamed name spec
  all_goals
    repeat first
      | exact ensures_pure rfl
      | exact ensures_error trivial
      | refine ensures_then fun _ => ?_
      | refine ensures_ite ?_ ?_
      | split
      | unfold Grammar.unwind
      | unfold Grammar.merge
      | unfold Grammar.unionWith

/-- No stage is read with a hint. -/
lemma unhinted_of_parse {j : Json} (h : parsePipeline j = .ok stages) : Unhinted stages :=
  (Phrase.ensures_pipeline ensures_hint?_none j).value h

/-- Fusion is invisible in what a pipeline that was read compiles to: the statement and all that is
emitted with it, or the error, are those of the stages as they were. Nor does it show when these are
part of a longer run of stages. -/
theorem fusion_compiles_alike {j : Json} {p : Pipeline} (hparse : parsePipeline j = .ok p.stages)
    (hc : Countable p.stages) :
    (∀ t o, (Pass.fusion.optimize p).compilation t o = p.compilation t o) ∧
    ∀ pre post d, Draft.stages (pre ++ (Pass.fusion.optimize p).stages ++ post) d =
      Draft.stages (pre ++ p.stages ++ post) d := by
  have hu : Unhinted p.stages := unhinted_of_parse hparse
  constructor
  · intro t o
    rw [compilation, compilation, statement_fusion hc hu]
  · intro pre post d
    rw [Draft.stages_append _ post, Draft.stages_append _ post]
    congr 1
    exact Draft.stages_append_congr (stages_fusion hc hu) pre d

/-- A page of the highest scores. -/
def pageJson : Json :=
  .arr [.obj [("$sort", .obj [("name", .num (.int 1))])],
    .obj [("$sort", .obj [("score", .num (.int (-1)))])],
    .obj [("$skip", .num (.int 10))], .obj [("$skip", .num (.int 5))],
    .obj [("$limit", .num (.int 40))], .obj [("$limit", .num (.int 20))]]

def page : Pipeline where
  stages := [.sort [⟨⟨["name"]⟩, .ascending⟩] none, .sort [⟨⟨["score"]⟩, .descending⟩] none,
    .skip 10, .skip 5, .limit 40, .limit 20]

theorem page_fusion_compiles_alike :
    parsePipeline pageJson = .ok page.stages ∧ Countable page.stages ∧
    (Pass.fusion.optimize page).stages =
      [.sort [⟨⟨["score"]⟩, .descending⟩] (some 35), .skip 15, .limit 20] ∧
    ∀ t o, (Pass.fusion.optimize page).compilation t o = page.compilation t o := by
  have hparse : parsePipeline pageJson = .ok page.stages := rfl
  have hc : Countable page.stages := by
    constructor
    · decide
    · intro n hn
      simp only [page, List.mem_cons, Stage.limit.injEq, List.not_mem_nil, or_false, reduceCtorEq,
        false_or] at hn
      rcases hn with rfl | rfl
      · decide
      · decide
  exact ⟨hparse, hc, rfl, (fusion_compiles_alike hparse hc).1⟩

end Pipeline

end PipelineSql
