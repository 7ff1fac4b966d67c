import PipelineSql.Proofs.Fixpoint

/-!
# Filters move by small steps

What `pushdown` does to the stages is a chain of steps of two kinds: two filters that are neighbours
become one, or a filter changes places with the stage before it. Whatever both kinds of steps keep,
`pushdown` keeps.

Main result: the stages that are no filters stay as they are, and so does the sequence of conjuncts
of the filters. Each filter that comes out is the conjunction of a run of filters that went in, and
each of these has only passed stages that let its fields through.
-/

namespace PipelineSql

/-! ## Conjuncts -/

namespace Expr

mutual

/-- The conjuncts of a filter: the operands of `$and`, at every depth. -/
def conjuncts : Expr → List Expr
  | .logic .and operands => conjunctsOfList operands
  | e => [e]

/-- The conjuncts of each filter of a list. -/
def conjunctsOfList : List Expr → List Expr
  | [] => []
  | e :: es => conjuncts e ++ conjunctsOfList es

end

lemma conjunctsOfList_append (es fs : List Expr) :
    conjunctsOfList (es ++ fs) = conjunctsOfList es ++ conjunctsOfList fs := by
  induction es with
  | nil => rfl
  | cons e es ih => simp [conjunctsOfList, ih]

lemma conjuncts_and (operands : List Expr) :
    (logic .and operands).conjuncts = conjunctsOfList operands := by
  rw [conjuncts]

/-- A filter reads what its conjuncts read. -/
lemma references_conjuncts (e : Expr) : e.conjuncts.flatMap references = e.references := by
  refine conjuncts.induct (fun e => e.conjuncts.flatMap references = e.references)
    (fun es => (conjunctsOfList es).flatMap references = (nodesOfList es).filterMap reference?)
    ?_ ?_ ?_ ?_ e
  · intro operands ih
    rw [conjuncts_and, ih, Pipeline.references_logic]
  · intro e he
    rw [conjuncts.eq_2 e he, List.flatMap_singleton]
  · rfl
  · intro e es ihe ihes
    rw [conjunctsOfList, List.flatMap_append, ihe, ihes, nodesOfList, List.filterMap_append]
    rfl

end Expr

namespace Pipeline

variable {f g : Expr} {s : Stage} {a b : List Stage}

lemma conjuncts_conjoin (e f : Expr) :
    (conjoin e f).conjuncts = e.conjuncts ++ f.conjuncts := by
  fun_cases conjoin e f with
  | case1 operands =>
    simp [Expr.conjuncts_and, Expr.conjunctsOfList_append, Expr.conjunctsOfList]
  | case2 => simp [Expr.conjuncts_and, Expr.conjunctsOfList]

/-! ## Steps -/

/-- One step of the filters. -/
inductive Step : List Stage → List Stage → Prop where
  /-- Two filters that are neighbours become one. -/
  | merge (pre : List Stage) (e f : Expr) (post : List Stage) :
    Step (pre ++ .filter e :: .filter f :: post) (pre ++ .filter (conjoin e f) :: post)
  /-- A filter changes places with the stage before it. -/
  | pass (pre : List Stage) {s : Stage} {f : Expr} (post : List Stage) : canPass f s = true →
    Step (pre ++ s :: .filter f :: post) (pre ++ .filter f :: s :: post)

/-- Is there a chain of steps from the first stages to the second? -/
abbrev Steps : List Stage → List Stage → Prop :=
  Relation.ReflTransGen Step

lemma Step.cons (h : Step a b) : Step (s :: a) (s :: b) := by
  cases h with
  | merge pre e f post => exact .merge (s :: pre) e f post
  | pass pre post hpass => exact .pass (s :: pre) post hpass

lemma step_of_move? (h : move? a = some b) : Step a b := by
  fun_induction move? a generalizing b with
  | case1 s f rest hpass =>
    cases h
    exact .pass [] rest hpass
  | case2 s f rest hpass ih =>
    obtain ⟨c, hc, rfl⟩ := Option.map_eq_some_iff.1 h
    exact (ih hc).cons
  | case3 s rest hrest ih =>
    obtain ⟨c, hc, rfl⟩ := Option.map_eq_some_iff.1 h
    exact (ih hc).cons
  | case4 => cases h

/-- A filter that is put after another filter is a step, and any other stage stays in its place. -/
lemma steps_add_append (acc : List Stage) (t : Stage) (todo : List Stage) :
    Steps (acc.reverse ++ t :: todo) ((add append acc t).reverse ++ todo) := by
  obtain h | ⟨e, f, rest, rfl, rfl⟩ := apart_head_or_filters acc t
  · rw [add_append_of_apart acc t h, List.reverse_cons, List.append_assoc]
    exact .refl
  · rw [List.reverse_cons, List.append_assoc]
    simp only [add, append, List.reverse_cons, List.append_assoc, List.singleton_append]
    exact .single (.merge ..)

lemma steps_foldl (acc todo : List Stage) :
    Steps (acc.reverse ++ todo) (todo.foldl (add append) acc).reverse := by
  induction todo generalizing acc with
  | nil =>
    rw [List.append_nil]
    exact .refl
  | cons t todo ih => exact (steps_add_append acc t todo).trans (ih (add append acc t))

lemma steps_mergeFilters (stages : List Stage) : Steps stages (mergeFilters stages) :=
  steps_foldl [] stages

lemma steps_turn (h : Turn a b) : Steps a b := by
  obtain ⟨c, hc, rfl⟩ := Option.map_eq_some_iff.1 h
  exact .head (step_of_move? hc) (steps_mergeFilters c)

/-- All that `pushdown` does is a chain of steps. -/
lemma steps_pushdown (stages : List Stage) : Steps stages (pushdown stages) := by
  have hturns := turns_pushdown stages
  generalize pushdown stages = b at hturns
  induction hturns with
  | refl => exact steps_mergeFilters stages
  | tail _ hturn ih => exact ih.trans (steps_turn hturn)

/-! ## Stages that are no filters -/

/-- The stages that are no filters. -/
def others (stages : List Stage) : List Stage :=
  stages.filter (!isFilter ·)

@[simp] lemma others_filter_cons : others (.filter f :: a) = others a := rfl

lemma others_cons (h : isFilter s = false) : others (s :: a) = s :: others a :=
  List.filter_cons_of_pos (by simp [h])

@[simp] lemma others_append (a b : List Stage) : others (a ++ b) = others a ++ others b :=
  List.filter_append ..

lemma Step.others_eq (h : Step a b) : others b = others a := by
  cases h with
  | merge => simp
  | pass pre post hpass => simp [others_cons (isFilter_of_canPass hpass)]

lemma Steps.others_eq (h : Steps a b) : others b = others a := by
  induction h with
  | refl => rfl
  | tail _ hstep ih => exact hstep.others_eq.trans ih

/-! ## Places of filters -/

/-- A filter with the stages before it that are no filters. -/
structure Placement where
  filter : Expr
  before : List Stage

/-- The filters among stages at their places; `before` are the stages before all of them that are no
filters. -/
def placements (before : List Stage) : List Stage → List Placement
  | [] => []
  | .filter f :: rest => ⟨f, before⟩ :: placements before rest
  | s :: rest => placements (before ++ [s]) rest

lemma placements_cons (before : List Stage) (h : isFilter s = false) :
    placements before (s :: a) = placements (before ++ [s]) a := by
  cases s with
  | filter f => cases h
  | _ => rfl

lemma placements_append (before a b : List Stage) :
    placements before (a ++ b) = placements before a ++ placements (before ++ others a) b := by
  induction a generalizing before with
  | nil => simp [placements, others]
  | cons s a ih =>
    cases h : isFilter s with
    | false => simp [placements_cons _ h, others_cons h, ih]
    | true =>
      cases s with
      | filter f => simp [placements, ih]
      | _ => cases h

/-- The conjuncts of all filters among stages, in order. -/
def conjunctsOf (stages : List Stage) : List Expr :=
  (placements [] stages).flatMap fun p => p.filter.conjuncts

/-- Does a stage let through everything that a filter reads? Sorts and row windows do, and a
projection that preserves every field of the filter. -/
def Transparent (f : Expr) : Stage → Prop
  | .sort .. | .limit _ | .skip _ => True
  | .project fields =>
    ∀ r ∈ f.references, ∃ path, r = .field path ∧ Projection.preserves fields path = true
  | _ => False

lemma transparent_of_canPass (h : canPass f s = true) : Transparent f s := by
  cases s with
  | sort | limit | skip => trivial
  | project fields =>
    intro r hr
    have hlets := List.all_eq_true.1 h r hr
    cases r with
    | field path => exact ⟨path, rfl, hlets⟩
    | wholeDocument => cases hlets
  | _ => cases h

/-- What lets a filter through lets every filter through that reads no more. -/
lemma Transparent.of_references (h : Transparent f s) (hsub : g.references ⊆ f.references) :
    Transparent g s := by
  cases s with
  | sort | limit | skip => trivial
  | project fields => exact fun r hr => h r (hsub hr)
  | _ => exact h.elim

/-- A run of filters becomes one filter: the conjunction of them all, at a place that each of them
reaches by passing stages that let it through. -/
structure Carries (run : List Placement) (q : Placement) : Prop where
  nonempty : run ≠ []
  conjuncts : q.filter.conjuncts = run.flatMap fun p => p.filter.conjuncts
  moves : ∀ p ∈ run, ∃ passed, p.before = q.before ++ passed ∧ ∀ s ∈ passed, Transparent p.filter s

/-- The one filter reads all that the filters of the run read. -/
lemma Carries.reads {run : List Placement} {p q : Placement} (h : Carries run q) (hp : p ∈ run) :
    p.filter.references ⊆ q.filter.references := by
  rw [← p.filter.references_conjuncts, ← q.filter.references_conjuncts, h.conjuncts,
    List.flatMap_assoc]
  exact fun r hr => List.mem_flatMap.2 ⟨p, hp, hr⟩

/-- Filters in runs, each of which becomes one filter. -/
inductive Gathers : List Placement → List Placement → Prop where
  | nil : Gathers [] []
  | cons {run q ps qs} : Carries run q → Gathers ps qs → Gathers (run ++ ps) (q :: qs)

namespace Gathers

variable {ps qs ps' qs' : List Placement} {p : Placement}

lemma append (h : Gathers ps qs) (h' : Gathers ps' qs') : Gathers (ps ++ ps') (qs ++ qs') := by
  induction h with
  | nil => exact h'
  | cons hrun _ ih =>
    rw [List.append_assoc, List.cons_append]
    exact .cons hrun ih

lemma refl (ps : List Placement) : Gathers ps ps := by
  induction ps with
  | nil => exact .nil
  | cons p ps ih =>
    have hself : Carries [p] p := by
      refine ⟨by simp, by simp, fun p' hp' => ?_⟩
      obtain rfl := List.mem_singleton.1 hp'
      exact ⟨[], by simp, by simp⟩
    exact .cons hself ih

/-- What becomes two lists of filters is two lists itself. -/
lemma split (h : Gathers ps (qs ++ qs')) :
    ∃ ps₁ ps₂, ps = ps₁ ++ ps₂ ∧ Gathers ps₁ qs ∧ Gathers ps₂ qs' := by
  induction qs generalizing ps with
  | nil => exact ⟨[], ps, rfl, .nil, h⟩
  | cons q qs ih =>
    cases h with
    | @cons run _ ps _ hrun h =>
      obtain ⟨ps₁, ps₂, rfl, h₁, h₂⟩ := ih h
      exact ⟨run ++ ps₁, ps₂, by simp, .cons hrun h₁, h₂⟩

lemma conjuncts_eq (h : Gathers ps qs) :
    (qs.flatMap fun q => q.filter.conjuncts) = ps.flatMap fun p => p.filter.conjuncts := by
  induction h with
  | nil => rfl
  | cons hrun _ ih => rw [List.flatMap_cons, List.flatMap_append, hrun.conjuncts, ih]

/-- Every filter is part of a run. -/
lemma exists_run (h : Gathers ps qs) (hp : p ∈ ps) : ∃ run q, p ∈ run ∧ q ∈ qs ∧ Carries run q := by
  induction h with
  | nil => cases hp
  | @cons run q ps qs hrun _ ih =>
    rcases List.mem_append.1 hp with hp | hp
    · exact ⟨run, q, hp, List.mem_cons_self, hrun⟩
    · obtain ⟨run', q', hp, hq', hrun'⟩ := ih hp
      exact ⟨run', q', hp, List.mem_cons_of_mem q hq', hrun'⟩

lemma ne_nil (h : Gathers ps qs) (hqs : qs ≠ []) : ps ≠ [] := by
  cases h with
  | nil => exact hqs
  | cons hrun _ => simp [hrun.nonempty]

end Gathers

/-- The parts of a run may be runs themselves. -/
lemma Carries.of_gathers {ps run : List Placement} {q : Placement} (h : Gathers ps run)
    (hrun : Carries run q) : Carries ps q where
  nonempty := h.ne_nil hrun.nonempty
  conjuncts := hrun.conjuncts.trans h.conjuncts_eq
  moves := by
    intro p hp
    obtain ⟨run', q', hp', hq', hrun'⟩ := h.exists_run hp
    obtain ⟨first, hfirst, hpass⟩ := hrun'.moves p hp'
    obtain ⟨further, hfurther, hpass'⟩ := hrun.moves q' hq'
    refine ⟨further ++ first, by rw [hfirst, hfurther, List.append_assoc], fun s hs => ?_⟩
    rcases List.mem_append.1 hs with hs | hs
    · exact (hpass' s hs).of_references (hrun'.reads hp')
    · exact hpass s hs

lemma Gathers.trans {ps qs rs : List Placement} (h : Gathers ps qs) (h' : Gathers qs rs) :
    Gathers ps rs := by
  induction h' generalizing ps with
  | nil => exact h
  | cons hrun _ ih =>
    obtain ⟨ps₁, ps₂, rfl, h₁, h₂⟩ := h.split
    exact .cons (hrun.of_gathers h₁) (ih h₂)

/-! ## What a step does to the filters -/

lemma carries_merge (e f : Expr) (before : List Stage) :
    Carries [⟨e, before⟩, ⟨f, before⟩] ⟨conjoin e f, before⟩ where
  nonempty := by simp
  conjuncts := by simp [conjuncts_conjoin]
  moves := by
    intro p hp
    simp only [List.mem_cons, List.not_mem_nil, or_false] at hp
    refine ⟨[], ?_, by simp⟩
    rcases hp with rfl | rfl <;> simp

lemma carries_pass (h : Transparent f s) (before : List Stage) :
    Carries [⟨f, before ++ [s]⟩] ⟨f, before⟩ where
  nonempty := by simp
  conjuncts := by simp
  moves := by
    intro p hp
    obtain rfl := List.mem_singleton.1 hp
    refine ⟨[s], rfl, fun r hr => ?_⟩
    obtain rfl := List.mem_singleton.1 hr
    exact h

lemma Step.gathers (h : Step a b) (before : List Stage) :
    Gathers (placements before a) (placements before b) := by
  cases h with
  | merge pre e f post =>
    rw [placements_append, placements_append]
    exact (Gathers.refl _).append
      (.cons (carries_merge e f (before ++ others pre)) (.refl (placements _ post)))
  | @pass pre s f post hpass =>
    have hs := isFilter_of_canPass hpass
    rw [placements_append, placements_append, placements_cons _ hs, placements, placements,
      placements_cons _ hs]
    exact (Gathers.refl _).append
      (.cons (carries_pass (transparent_of_canPass hpass) (before ++ others pre)) (.refl _))

lemma Steps.gathers (h : Steps a b) (before : List Stage) :
    Gathers (placements before a) (placements before b) := by
  induction h with
  | refl => exact .refl _
  | tail _ hstep ih => exact ih.trans (hstep.gathers before)

/-- `pushdown` keeps the source, the stages that are no filters and the sequence of conjuncts. Its
filters are the conjunctions of runs of the filters that it is given, and each of these has moved to
its place past nothing but sorts, row windows and projections that preserve every field of it. -/
theorem pushdown_conserves_stages (p : Pipeline) :
    (Pass.pushdown.optimize p).source = p.source ∧
    others (Pass.pushdown.optimize p).stages = others p.stages ∧
    conjunctsOf (Pass.pushdown.optimize p).stages = conjunctsOf p.stages ∧
    Gathers (placements [] p.stages) (placements [] (Pass.pushdown.optimize p).stages) := by
  have hsteps := steps_pushdown p.stages
  have hgathers := hsteps.gathers []
  exact ⟨rfl, hsteps.others_eq, hgathers.conjuncts_eq, hgathers⟩

end Pipeline

end PipelineSql
