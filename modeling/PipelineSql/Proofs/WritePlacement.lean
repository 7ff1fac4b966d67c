import PipelineSql.Proofs.Binding
import PipelineSql.Proofs.FilterMoves
import PipelineSql.Proofs.Relation.Alike
import PipelineSql.Proofs.RowWindows
import PipelineSql.Proofs.WellFormed.Pipeline

/-!
# Stages that write come last

A pipeline that is read and found without issues writes at most once, with its last stage, and no
pipeline inside it writes. The passes keep that stage in its place and move only stages that do not
write.
-/

namespace PipelineSql

namespace Stage

/-- Neither the stage nor any stage inside it writes. -/
def Silent (s : Stage) : Prop :=
  ∀ n ∈ s.nodes, n.isTerminal = false

lemma silent_iff {s : Stage} :
    s.Silent ↔ s.isTerminal = false ∧ ∀ t ∈ s.inner, t.Silent :=
  forall_nodes

/-- Every stage that writes, at any depth, is the last stage of the pipeline itself. -/
def WritesLast (stages : List Stage) : Prop :=
  ∀ before s after, stages = before ++ s :: after →
    ∀ n ∈ s.nodes, n.isTerminal = true → n = s ∧ after = []

lemma isTerminal_false_of_isFacetable {s : Stage} (h : s.isFacetable = true) :
    s.isTerminal = false := by
  cases s <;> simp_all [isFacetable, isTerminal]

end Stage

/-! ## Validity -/

namespace Validity

open Stage

variable {place : String} {stages : List Stage}

lemma not_terminal_of_nestedIssues (h : nestedIssues place stages = []) :
    ∀ s ∈ stages, s.isTerminal = false := by
  intro s hs
  exact Bool.eq_false_iff.2 (List.filter_eq_nil_iff.1 (List.map_eq_nil_iff.1 h) s hs)

mutual

/-- No stage inside a stage without issues writes. -/
lemma silent_of_stageIssues (here : String) (s : Stage) (h : stageIssues here s = [])
    (hw : s.WellFormed) : ∀ t ∈ s.inner, t.Silent := by
  cases s with
  | lookupPipeline source asField vars stages =>
    obtain ⟨hnested, heach⟩ := List.append_eq_nil_iff.1 h
    have hterminal := not_terminal_of_nestedIssues (List.append_eq_nil_iff.1 hnested).1
    have hinner := silent_of_eachIssues here 0 stages heach (wellFormed_iff.1 hw).2
    exact fun t ht => silent_iff.2 ⟨hterminal t ht, hinner t ht⟩
  | unionWith source stages =>
    exact silent_of_optionIssues here stages h (wellFormed_iff.1 hw).2
  | facet facets =>
    obtain ⟨hnode, hinner⟩ := wellFormed_iff.1 hw
    exact silent_of_facetIssues here facets h hnode.facets hinner
  | _ => exact List.forall_mem_nil _

lemma silent_of_eachIssues (place : String) (n : Nat) (stages : List Stage)
    (h : eachIssues place n stages = []) (hw : ∀ s ∈ stages, s.WellFormed) :
    ∀ s ∈ stages, ∀ t ∈ s.inner, t.Silent := by
  cases stages with
  | nil => exact List.forall_mem_nil _
  | cons s rest =>
    obtain ⟨hs, hrest⟩ := List.append_eq_nil_iff.1 h
    obtain ⟨hws, hwrest⟩ := List.forall_mem_cons.1 hw
    exact List.forall_mem_cons.2 ⟨silent_of_stageIssues _ s hs hws,
      silent_of_eachIssues place (n + 1) rest hrest hwrest⟩

lemma silent_of_optionIssues (here : String) (stages : Option (List Stage))
    (h : optionIssues here stages = []) (hw : ∀ s ∈ stages.getD [], s.WellFormed) :
    ∀ s ∈ stages.getD [], s.Silent := by
  cases stages with
  | none => exact List.forall_mem_nil _
  | some stages =>
    obtain ⟨hnested, heach⟩ := List.append_eq_nil_iff.1 h
    have hterminal := not_terminal_of_nestedIssues (List.append_eq_nil_iff.1 hnested).1
    have hinner := silent_of_eachIssues here 0 stages heach hw
    exact fun t ht => silent_iff.2 ⟨hterminal t ht, hinner t ht⟩

/-- The stages of a facet are not looked at for writing: none that writes is read there. -/
lemma silent_of_facetIssues (here : String) (facets : List (Path × List Stage))
    (h : facetIssues here facets = []) (hf : ∀ s ∈ facets.flatMap Prod.snd, s.isFacetable = true)
    (hw : ∀ s ∈ facets.flatMap Prod.snd, s.WellFormed) :
    ∀ s ∈ facets.flatMap Prod.snd, s.Silent := by
  match facets with
  | [] => exact List.forall_mem_nil _
  | (name, stages) :: rest =>
    obtain ⟨hissues, hrest⟩ := List.append_eq_nil_iff.1 h
    have heach := (List.append_eq_nil_iff.1 hissues).2
    obtain ⟨hfs, hfrest⟩ := List.forall_mem_append.1 hf
    obtain ⟨hws, hwrest⟩ := List.forall_mem_append.1 hw
    have hinner := silent_of_eachIssues _ 0 stages heach hws
    refine List.forall_mem_append.2 ⟨fun s hs => ?_, ?_⟩
    · exact silent_iff.2 ⟨isTerminal_false_of_isFacetable (hfs s hs), hinner s hs⟩
    · exact silent_of_facetIssues here rest hrest hfrest hwrest

end

lemma mem_numbered {before after : List Stage} {s : Stage} (n : Nat) :
    (n + before.length, s) ∈ numbered n (before ++ s :: after) := by
  induction before generalizing n with
  | nil => exact List.mem_cons_self
  | cons t before ih =>
    have h := ih (n + 1)
    rw [Nat.add_right_comm] at h
    exact List.mem_cons_of_mem _ h

/-- Nothing follows a stage that writes. -/
lemma eq_nil_of_orderIssues {before after : List Stage} {s : Stage}
    (h : orderIssues place (before ++ s :: after) = []) (hs : s.isTerminal = true) :
    after = [] := by
  have hnone := List.filterMap_eq_nil_iff.1 h _ (mem_numbered 0)
  cases after with
  | nil => rfl
  | cons t after => simp [hs] at hnone

/-- A pipeline of well-formed stages without issues writes with its last stage alone. -/
lemma writesLast (h : stagesIssues place stages = []) (hw : ∀ s ∈ stages, s.WellFormed) :
    WritesLast stages := by
  obtain ⟨horder, heach⟩ := List.append_eq_nil_iff.1 h
  have hinner := silent_of_eachIssues place 0 stages heach hw
  rintro before s after rfl n hn hterminal
  rw [nodes_eq] at hn
  obtain rfl | hn := List.mem_cons.1 hn
  · exact ⟨rfl, eq_nil_of_orderIssues horder hterminal⟩
  · obtain ⟨t, ht, hn⟩ := List.mem_flatMap.1 hn
    have hsilent := hinner s (List.mem_append_right _ List.mem_cons_self) t ht n hn
    rw [hsilent] at hterminal
    cases hterminal

end Validity

/-! ## Passes -/

namespace Pipeline

open Stage

variable {P : Stage → Prop} {stages : List Stage} {w : Stage}

/-- What is true of both filters that become one, and so of that one, stays true of all stages. -/
lemma forall_pushdown (hboth : ∀ l r, P (.filter l) → P (.filter r) → P (.filter (conjoin l r)))
    (h : ∀ s ∈ stages, P s) : ∀ s ∈ pushdown stages, P s := by
  have happend (f : Expr) (acc : List Stage) (hf : P (.filter f)) (hacc : ∀ t ∈ acc, P t) :
      ∀ t ∈ append f acc, P t := by
    fun_cases append f acc with
    | case1 earlier rest =>
      obtain ⟨hearlier, hrest⟩ := List.forall_mem_cons.1 hacc
      exact List.forall_mem_cons.2 ⟨hboth _ _ hearlier hf, hrest⟩
    | case2 => exact List.forall_mem_cons.2 ⟨hf, hacc⟩
  have hpush (f : Expr) (acc : List Stage) (hf : P (.filter f)) (hacc : ∀ t ∈ acc, P t) :
      ∀ t ∈ push f acc, P t := by
    fun_induction push f acc with
    | case1 => exact List.forall_mem_singleton.2 hf
    | case2 earlier rest =>
      obtain ⟨hearlier, hrest⟩ := List.forall_mem_cons.1 hacc
      exact List.forall_mem_cons.2 ⟨hboth _ _ hearlier hf, hrest⟩
    | case3 s rest _ _ ih =>
      obtain ⟨hs, hrest⟩ := List.forall_mem_cons.1 hacc
      exact List.forall_mem_cons.2 ⟨hs, ih hrest⟩
    | case4 => exact List.forall_mem_cons.2 ⟨hf, hacc⟩
  have hfold (place : Expr → List Stage → List Stage)
      (hplace : ∀ f acc, P (.filter f) → (∀ t ∈ acc, P t) → ∀ t ∈ place f acc, P t)
      (todo acc : List Stage) (htodo : ∀ t ∈ todo, P t) (hacc : ∀ t ∈ acc, P t) :
      ∀ t ∈ todo.foldl (add place) acc, P t := by
    induction todo generalizing acc with
    | nil => exact hacc
    | cons s todo ih =>
      obtain ⟨hs, htodo⟩ := List.forall_mem_cons.1 htodo
      refine ih _ htodo ?_
      fun_cases add place acc s with
      | case1 f => exact hplace f acc hs hacc
      | case2 => exact List.forall_mem_cons.2 ⟨hs, hacc⟩
  have hmerged : ∀ t ∈ mergeFilters stages, P t := fun t ht =>
    hfold append happend stages [] h (List.forall_mem_nil _) t (List.mem_reverse.1 ht)
  exact fun t ht =>
    hfold push hpush _ [] hmerged (List.forall_mem_nil _) t (List.mem_reverse.1 ht)

/-- What is true of the stages that fusion makes is true of all stages after it. -/
lemma forall_fusion (hlimit : ∀ n, P (.limit n)) (hskip : ∀ n, P (.skip n))
    (hsort : ∀ keys hint hint', P (.sort keys hint) → P (.sort keys hint'))
    (h : ∀ s ∈ stages, P s) : ∀ s ∈ fusion stages, P s := by
  have habsorb (acc : List Stage) (s : Stage) (hacc : ∀ t ∈ acc, P t) (hs : P s) :
      ∀ t ∈ absorb acc s, P t := by
    fun_cases absorb acc s with
    | case1 => exact List.forall_mem_cons.2 ⟨hlimit _, (List.forall_mem_cons.1 hacc).2⟩
    | case2 => exact List.forall_mem_cons.2 ⟨hskip _, (List.forall_mem_cons.1 hacc).2⟩
    | case3 => exact List.forall_mem_cons.2 ⟨hsort _ _ _ hs, (List.forall_mem_cons.1 hacc).2⟩
    | case4 => exact List.forall_mem_cons.2 ⟨hs, hacc⟩
  have hfold (todo acc : List Stage) (htodo : ∀ t ∈ todo, P t) (hacc : ∀ t ∈ acc, P t) :
      ∀ t ∈ todo.foldl absorb acc, P t := by
    induction todo generalizing acc with
    | nil => exact hacc
    | cons s todo ih =>
      obtain ⟨hs, htodo⟩ := List.forall_mem_cons.1 htodo
      exact ih _ htodo (habsorb acc s hacc hs)
  have hhint (ss : List Stage) (hss : ∀ t ∈ ss, P t) : ∀ t ∈ hint ss, P t := by
    fun_induction hint ss with
    | case1 => exact hss
    | case2 keys known rest ih =>
      obtain ⟨hs, hrest⟩ := List.forall_mem_cons.1 hss
      exact List.forall_mem_cons.2 ⟨hsort _ _ _ hs, ih hrest⟩
    | case3 s rest hs ih =>
      obtain ⟨hs, hrest⟩ := List.forall_mem_cons.1 hss
      exact List.forall_mem_cons.2 ⟨hs, ih hrest⟩
  refine hhint _ fun t ht => ?_
  exact hfold stages [] h (List.forall_mem_nil _) t (List.mem_reverse.1 ht)

/-- A property that the passes keep: what they make of stages with it has it. -/
structure Kept (P : Stage → Prop) : Prop where
  filter : ∀ l r, P (.filter l) → P (.filter r) → P (.filter (conjoin l r))
  limit : ∀ n, P (.limit n)
  skip : ∀ n, P (.skip n)
  sort : ∀ keys hint hint', P (.sort keys hint) → P (.sort keys hint')

/-- The stages that the passes make have none inside, so a property of single stages is kept at any
depth. -/
lemma Kept.nodes (hP : Kept P) : Kept fun s => ∀ n ∈ s.nodes, P n where
  filter l r hl hr := List.forall_mem_singleton.2
    (hP.filter l r (List.forall_mem_singleton.1 hl) (List.forall_mem_singleton.1 hr))
  limit n := List.forall_mem_singleton.2 (hP.limit n)
  skip n := List.forall_mem_singleton.2 (hP.skip n)
  sort keys hint hint' h := List.forall_mem_singleton.2
    (hP.sort keys hint hint' (List.forall_mem_singleton.1 h))

lemma Kept.optimize (hP : Kept P) (h : ∀ s ∈ stages, P s) : ∀ s ∈ Pass.standard.run stages, P s :=
  forall_fusion hP.limit hP.skip hP.sort (forall_pushdown hP.filter h)

/-- So it is true of the stages that are compiled if it is of those that are given. -/
lemma Kept.admitted {p q : Pipeline} {t : Target} {o : Options} (hP : Kept P)
    (h : ∀ s ∈ p.stages, P s) (hq : admitted p t o = .ok q) : ∀ s ∈ q.stages, P s := by
  obtain rfl := eq_of_admitted hq
  split
  · exact hP.optimize h
  · exact h

lemma isFilter_of_isTerminal (hw : w.isTerminal = true) : isFilter w = false := by
  cases w <;> first | rfl | cases hw

lemma pushdown_concat (hw : w.isTerminal = true) (a : List Stage) :
    pushdown (a ++ [w]) = pushdown a ++ [w] := by
  have hadd {place : Expr → List Stage → List Stage} (acc : List Stage) :
      add place acc w = w :: acc := add_of_not_filter (isFilter_of_isTerminal hw)
  have hmerge : mergeFilters (a ++ [w]) = mergeFilters a ++ [w] := by
    rw [mergeFilters, List.foldl_append, List.foldl_cons, List.foldl_nil, hadd, List.reverse_cons]
    rfl
  rw [pushdown, hmerge, List.foldl_append, List.foldl_cons, List.foldl_nil, hadd, List.reverse_cons]
  rfl

/-- The passes concern the stages before the one that writes. -/
lemma optimize_concat (hw : w.isTerminal = true) (a : List Stage) :
    Pass.standard.run (a ++ [w]) = Pass.standard.run a ++ [w] := by
  change fusion (pushdown (a ++ [w])) = fusion (pushdown a) ++ [w]
  rw [pushdown_concat hw, fusion_concat hw]

lemma kept_silent : Kept Silent :=
  Kept.nodes ⟨fun _ _ _ _ => rfl, fun _ => rfl, fun _ => rfl, fun _ _ _ _ => rfl⟩

/-- A pipeline ends with a stage that writes, which is split off, or it does not. -/
lemma splitTerminal_cases (stages : List Stage) :
    (∃ init w, w.isTerminal = true ∧ stages = init ++ [w] ∧
      splitTerminal stages = (init, some w)) ∨
    (∀ init w, stages = init ++ [w] → w.isTerminal = false) ∧
      splitTerminal stages = (stages, none) := by
  obtain rfl | ⟨init, w, rfl⟩ := List.eq_nil_or_concat' stages
  · exact .inr ⟨fun init w h => absurd h (by simp), rfl⟩
  · rw [splitTerminal_concat]
    cases hw : w.isTerminal with
    | true => exact .inl ⟨init, w, hw, rfl, rfl⟩
    | false =>
      refine .inr ⟨fun init' w' h => ?_, rfl⟩
      obtain ⟨-, h⟩ := List.append_inj' h rfl
      obtain rfl : w = w' := List.singleton_inj.1 h
      exact hw

/-- A pipeline writes last exactly if no stage writes but one that is split off at its end. -/
lemma writesLast_iff : WritesLast stages ↔ ∀ s ∈ (splitTerminal stages).1, s.Silent := by
  obtain ⟨init, w, hw, rfl, hsplit⟩ | ⟨hlast, hsplit⟩ := splitTerminal_cases stages
  · rw [hsplit]
    constructor
    · intro h s hs n hn
      obtain ⟨before, after, rfl⟩ := List.append_of_mem hs
      have hwrites := h before s (after ++ [w]) (by simp) n hn
      simpa using hwrites
    · intro h before s after he n hn hn'
      obtain rfl | ⟨rest, z, rfl⟩ := List.eq_nil_or_concat' after
      · obtain ⟨-, hs⟩ := List.append_inj' he rfl
        obtain rfl : w = s := List.singleton_inj.1 hs
        have hnodes : w.nodes = [w] := by cases w <;> first | rfl | cases hw
        rw [hnodes, List.mem_singleton] at hn
        exact ⟨hn, rfl⟩
      · rw [← List.cons_append, ← List.append_assoc] at he
        obtain ⟨rfl, -⟩ := List.append_inj' he rfl
        have hsilent := h s (List.mem_append_right _ List.mem_cons_self) n hn
        rw [hn'] at hsilent
        cases hsilent
  · rw [hsplit]
    constructor
    · intro h s hs n hn
      obtain ⟨before, after, rfl⟩ := List.append_of_mem hs
      by_contra hterminal
      obtain ⟨rfl, rfl⟩ := h before s after rfl n hn (Bool.eq_true_of_not_eq_false hterminal)
      exact hterminal (hlast before n rfl)
    · rintro h before s after rfl n hn hn'
      have hsilent := h s (List.mem_append_right _ List.mem_cons_self) n hn
      rw [hn'] at hsilent
      cases hsilent

/-- A pipeline that writes last does so after the passes too. -/
lemma writesLast_optimize (h : WritesLast stages) : WritesLast (Pass.standard.run stages) := by
  rw [writesLast_iff] at h ⊢
  obtain ⟨init, w, hw, rfl, hsplit⟩ | ⟨-, hsplit⟩ := splitTerminal_cases stages
  · rw [hsplit] at h
    rw [optimize_concat hw, splitTerminal_concat, if_pos hw]
    exact kept_silent.optimize h
  · rw [hsplit] at h
    have hsub := (splitTerminal_sublist (Pass.standard.run stages)).subset
    exact fun s hs => kept_silent.optimize h s (hsub hs)

end Pipeline

/-! ## Compiling -/

open Result Pipeline Stage

instance (name : String) : Ordinary (checkTableName name) where
  satisfies := (ensures_checkTableName name).imp fun _ _ => trivial

instance (name : String) : Ordinary (Target.checkColumn name) := by
  unfold Target.checkColumn
  split
  · infer_instance
  · exact ⟨rfl⟩

instance (t : Target) : Ordinary t.check := by
  have hschema : Ordinary (t.schema.forM checkTableName) := by
    cases t.schema with
    | none => exact ⟨trivial⟩
    | some schema => exact inferInstanceAs (Ordinary (checkTableName schema))
  unfold Target.check
  infer_instance

/-- No stage is refused for its place while a pipeline is compiled that writes last. -/
lemma ordinary_of_writesLast {p : Pipeline} (h : WritesLast p.stages) {t : Target} {o : Options}
    {x : Error} {e : Emission} (hx : p.compilation t o = .error x e) :
    x.isOrdinary = true := by
  have hextracts := FragmentLogic.extracts_all (L := .same) (Dialect.Alike.refl .oracle26ai) rfl
  have halike := alike_compilation (L := .same) (fun _ _ => rfl)
    (F := fun e => e.isOrdinary = true) (fun h => h) (p := p) (t := t) (.refl o.dialect) rfl
    rfl trivial ?_ (fun _ _ _ _ => trivial) (fun _ _ _ _ => trivial)
    (fun _ _ b _ _ _ => RenderLogic.admits_of_lists (fun _ => trivial) _ b)
  · rw [hx] at halike
    cases halike with
    | error hx => exact hx
  · intro n hn
    rw [Stage.nodesOfList_eq] at hn
    obtain ⟨s, hs, hn⟩ := List.mem_flatMap.1 hn
    have hsilent := writesLast_iff.1 h s hs n hn
    refine ⟨fun _ _ => trivial, fun _ _ _ _ => hextracts _, fun _ _ => trivial,
      FragmentLogic.windowing_equal, fun hterminal => ?_, trivial, nofun, fun _ => trivial⟩
    rw [hsilent] at hterminal
    cases hterminal

lemma ensures_admitted {p : Pipeline} (hp : ∀ s ∈ p.stages, s.WellFormed) (t : Target)
    (o : Options) : Ensures (admitted p t o) fun q => WritesLast q.stages := by
  refine ensures_then fun _ => ?_
  dsimp only
  split
  · exact ensures_error rfl
  · next hissues =>
    have hvalid : validate (p.collection t) p.stages = [] := by simpa using hissues
    have hlast := Validity.writesLast (List.append_eq_nil_iff.1 hvalid).2 hp
    refine ensures_pure ?_
    split
    · exact writesLast_optimize hlast
    · exact hlast

lemma ensures_translate {p : Pipeline} (hp : ∀ s ∈ p.stages, s.WellFormed) (t : Target)
    (o : Options) : Ensures (translate p t o) fun _ => True := by
  refine ensures_bind (ensures_admitted hp t o) fun q hq => ?_
  split
  · exact ensures_pure trivial
  · next x e hx => exact ensures_error (ordinary_of_writesLast hq hx)

lemma ensures_compileJson (j : Json) (t : Target) (o : Options) :
    Ensures (compileJson j t o) fun _ => True := by
  have hpipeline := (Phrase.throughout_ofJson Phrase.inherited_spells j).self.pipeline
  refine ensures_bind hpipeline fun stages hstages => ?_
  exact ensures_bind (ensures_translate hstages t o) fun _ _ => ensures_pure trivial

/-- No pipeline is refused by the compiler for the place of a stage. What is read and found without
issues writes only with its last stage. The passes keep that stage last, and none that writes is
among the stages that are compiled before it, at any depth, whether the passes have run or not. -/
theorem accepted_pipeline_writes_last (j : Json) (t : Target) (o : Options) :
    (∀ name, compileJson j t o ≠ .error (.structural (.misplaced name))) ∧
    ∀ stages collection, parsePipeline j = .ok stages → validate collection stages = [] →
      WritesLast stages ∧
      (∀ init w, stages = init ++ [w] → w.isTerminal = true →
        Pass.standard.run stages = Pass.standard.run init ++ [w]) ∧
      ∀ s ∈ (splitTerminal stages).1 ++ (splitTerminal (Pass.standard.run stages)).1, s.Silent := by
  constructor
  · intro name h
    have hordinary := (ensures_compileJson j t o).error h
    cases hordinary
  · intro stages collection hparse hvalid
    have hwf := (Phrase.throughout_ofJson Phrase.inherited_spells j).self.pipeline.value hparse
    have hlast := Validity.writesLast (List.append_eq_nil_iff.1 hvalid).2 hwf
    refine ⟨hlast, ?_, List.forall_mem_append.2 ⟨writesLast_iff.1 hlast, ?_⟩⟩
    · rintro init w rfl hw
      exact optimize_concat hw init
    · exact writesLast_iff.1 (writesLast_optimize hlast)

/-- The smallest totals of one shop and the latest documents of an archive, merged into a digest. -/
def digestJson : Json :=
  .arr [
    .obj [("$unionWith", .obj [("coll", .str "archive"), ("pipeline", .arr [.obj [("$facet",
      .obj [("latest", .arr [.obj [("$limit", .num (.int 5))]])])]])])],
    .obj [("$sort", .obj [("total", .num (.int 1))])],
    .obj [("$match", .obj [("shop", .str "north")])],
    .obj [("$merge", .str "digest")]]

def digestStages : List Stage :=
  [.unionWith "archive" (some [.facet [(⟨["latest"]⟩, [.limit 5])]]),
    .sort [⟨⟨["total"]⟩, .ascending⟩] none,
    .filter (.compare .eq (.field { path := ⟨["shop"]⟩ }) (.lit (.string "north"))),
    .merge
      { schema := none
        table := "digest"
        on := [⟨["_id"]⟩]
        matched := .merge
        unmatched := .insert }]

theorem digest_writes_last :
    parsePipeline digestJson = .ok digestStages ∧ validate "orders" digestStages = [] ∧
      WritesLast digestStages ∧ ∃ init w, w.isTerminal = true ∧ digestStages = init ++ [w] ∧
        Pass.standard.run digestStages = Pass.standard.run init ++ [w] ∧
        ∀ s ∈ (splitTerminal (Pass.standard.run digestStages)).1, s.Silent := by
  have hparse : parsePipeline digestJson = .ok digestStages := rfl
  have hvalid : validate "orders" digestStages = [] := rfl
  obtain ⟨hlast, hkept, hsilent⟩ :=
    (accepted_pipeline_writes_last digestJson {} {}).2 digestStages "orders" hparse hvalid
  exact ⟨hparse, hvalid, hlast, digestStages.dropLast, _, rfl, rfl, hkept _ _ rfl rfl,
    (List.forall_mem_append.1 hsilent).2⟩

end PipelineSql
