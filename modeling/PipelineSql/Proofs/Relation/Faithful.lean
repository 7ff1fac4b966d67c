import PipelineSql.Proofs.Relation.Alike

/-!
# Commands and what they compute

A computation that renders is a command on the context, and also a function of an environment and of
what was emitted. The command is faithful to the function if it ends in the same value or the same
error and changes nothing of the context but what is emitted and, where that may be, the named
subqueries. For a time it may change other things as well; all of them have to be back in the end.

Main result: every compilation is faithful. So what is compiled can be told from the functions
alone.
-/

namespace PipelineSql

variable {α β : Type}

/-! ## Runs from two emissions -/

/-- Nothing is better than full capability. -/
lemma Capability.worse_full (c : Capability) : c.worse .full = c := by
  cases c <;> rfl

/-- The worst of three capabilities is found in any order. -/
lemma Capability.worse_assoc (a b c : Capability) :
    (a.worse b).worse c = a.worse (b.worse c) := by
  cases a <;> cases b <;> cases c <;> rfl

namespace Emission

/-- One emission behind another. -/
instance : Append Emission where
  append m n := ⟨m.values ++ n.values, m.aliases ++ n.aliases, m.warnings ++ n.warnings,
    m.capability.worse n.capability⟩

/-- Values, aliases and warnings are appended, and the worse capability counts. -/
lemma append_def (m n : Emission) :
    m ++ n = ⟨m.values ++ n.values, m.aliases ++ n.aliases, m.warnings ++ n.warnings,
      m.capability.worse n.capability⟩ :=
  rfl

/-- Emissions are appended in any order of brackets. -/
lemma append_assoc (m n k : Emission) : m ++ n ++ k = m ++ (n ++ k) := by
  simp only [append_def, List.append_assoc, Capability.worse_assoc]

/-- An empty emission adds nothing. -/
lemma append_nil (m : Emission) : m ++ ({} : Emission) = m := by
  simp only [append_def, List.append_nil, Capability.worse_full]

/-- A value is added behind the emission. -/
lemma addValue_eq (m : Emission) (l : Literal) : m.addValue l = m ++ { values := [l] } := by
  simp only [append_def, addValue, List.append_nil, Capability.worse_full]

/-- The use of an alias is added behind the emission. -/
lemma addAlias_eq (m : Emission) (base : String) :
    m.addAlias base = m ++ { aliases := [base] } := by
  simp only [append_def, addAlias, List.append_nil, Capability.worse_full]

/-- A warning is added behind the emission, with its capability. -/
lemma addWarning_eq (m : Emission) (w : Warning) :
    m.addWarning w = m ++ { warnings := [w], capability := w.deviation.capability } := by
  simp only [append_def, addWarning, List.append_nil]

/-- Is the next slot the same, and the next number of every alias? -/
structure Level (m m' : Emission) : Prop where
  slots : m.values.length = m'.values.length
  aliases : ∀ base, m.aliases.count base = m'.aliases.count base

/-- Emissions of one level stay on one level if the same is added. -/
lemma Level.append {m m' : Emission} (h : m.Level m') (added : Emission) :
    (m ++ added).Level (m' ++ added) where
  slots := by simp only [append_def, List.length_append, h.slots]
  aliases base := by simp only [append_def, List.count_append, h.aliases]

end Emission

/-- The outcomes of runs from two emissions: related values or the same error, and the same is
added. -/
inductive Outcome.Beside (m m' : Emission) (A : α → α → Prop) :
    EStateM.Result Error Emission α → EStateM.Result Error Emission α → Prop where
  | ok {a a'} (added : Emission) :
    A a a' → Beside m m' A (.ok a (m ++ added)) (.ok a' (m' ++ added))
  | error {x} (added : Emission) : Beside m m' A (.error x (m ++ added)) (.error x (m' ++ added))

/-- Runs that emit the same end beside each other. -/
lemma Outcome.Beside.emits {m m' n n' : Emission} {A : α → α → Prop} {a a' : α} (added : Emission)
    (ha : A a a') (hn : n = m ++ added) (hn' : n' = m' ++ added) :
    Beside m m' A (.ok a n) (.ok a' n') := by
  rw [hn, hn']
  exact .ok added ha

/-- If one run ends in a value, so does the other. -/
lemma Outcome.Beside.value {m m' n : Emission} {A : α → α → Prop} {a : α}
    {x : EStateM.Result Error Emission α} (h : Beside m m' A (.ok a n) x) : ∃ a', A a a' := by
  cases h with
  | ok added ha => exact ⟨_, ha⟩

/-- Runs from emissions of one level add the same. -/
def Render.Beside (E : Env → Env → Prop) (A : α → α → Prop) (r r' : Render α) : Prop :=
  ∀ env env' m m', E env env' → Emission.Level m m' →
    Outcome.Beside m m' A ((r.run env).run m) ((r'.run env').run m')

namespace Render.Beside

variable {E : Env → Env → Prop} {A : α → α → Prop} {B : β → β → Prop}

protected lemma pure {a a' : α} (h : A a a') : Beside E A (pure a) (pure a') :=
  fun _ _ m m' _ _ => .emits {} h m.append_nil.symm m'.append_nil.symm

/-- After what both runs have added, they are of one level again. -/
protected lemma bind {r r' : Render α} {k k' : α → Render β} (hr : Beside E A r r')
    (hk : ∀ a a', A a a' → Beside E B (k a) (k' a')) : Beside E B (r >>= k) (r' >>= k') := by
  intro env env' m m' henv hlevel
  have hfirst := hr env env' m m' henv hlevel
  change Outcome.Beside m m' B ((r.run env >>= fun a => (k a).run env).run m)
    ((r'.run env' >>= fun a => (k' a).run env').run m')
  simp only [EStateM.run, bind, EStateM.bind] at hfirst ⊢
  generalize r.run env m = x, r'.run env' m' = x' at hfirst ⊢
  cases hfirst with
  | @ok a a' added ha =>
    have hsecond := hk a a' ha env env' _ _ henv (hlevel.append added)
    simp only [EStateM.run] at hsecond
    dsimp only
    generalize (k a).run env (m ++ added) = y, (k' a').run env' (m' ++ added) = y' at hsecond ⊢
    cases hsecond with
    | ok more hb =>
      rw [Emission.append_assoc, Emission.append_assoc]
      exact .ok _ hb
    | error more =>
      rw [Emission.append_assoc, Emission.append_assoc]
      exact .error _
  | error added => exact .error added

/-- A computation in another environment. -/
lemma adapt {E' : Env → Env → Prop} {r r' : Render α} {change change' : Command α → Command α}
    {f f' : Env → Env} (h : ∀ env env', E env env' → E' (f env) (f' env'))
    (hr : Beside E' A r r') :
    Beside E A (Render.adapt change f r) (Render.adapt change' f' r') :=
  fun env env' m m' henv hlevel => hr (f env) (f' env') m m' (h env env' henv) hlevel

/-- The environments are read as they are. -/
lemma ask : Beside E E read read :=
  fun _ _ m m' henv _ => .emits {} henv m.append_nil.symm m'.append_nil.symm

/-- A failure adds nothing. -/
lemma fail {x : Error} : Beside E A (ofResult (.error x)) (ofResult (.error x)) := by
  intro env env' m m' _ _
  have herror : Outcome.Beside m m' A (.error x (m ++ {})) (.error x (m' ++ {})) := .error {}
  rwa [Emission.append_nil, Emission.append_nil] at herror

/-- A named subquery is no part of the emission. -/
lemma hoist (cte cte' : Cte) : Beside E Eq (Render.hoist cte) (Render.hoist cte') :=
  fun _ _ m m' _ _ => .emits {} rfl m.append_nil.symm m'.append_nil.symm

/-- The next slot is the same on one level. -/
lemma slot (l : Literal) : Beside E Eq (Render.slot l) (Render.slot l) := by
  intro env env' m m' _ hlevel
  refine .emits { values := [l] } ?_ (m.addValue_eq l) (m'.addValue_eq l)
  rw [hlevel.slots]

/-- The next number of an alias is the same on one level. -/
lemma newAlias (base : String) :
    Beside E (SameAlias base) (Render.newAlias base) (Render.newAlias base) := by
  intro env env' m m' _ hlevel
  refine .emits { aliases := [base] } ⟨?_, _, Nat.succ_pos _, rfl⟩ (m.addAlias_eq base)
    (m'.addAlias_eq base)
  rw [hlevel.aliases]

/-- A warning is the same on both sides. -/
lemma record (w : Warning) : Beside E Eq (Render.record w) (Render.record w) :=
  fun _ _ m m' _ _ => .emits _ rfl (m.addWarning_eq w) (m'.addWarning_eq w)

/-- A warning is refused on both sides or on neither. -/
lemma warn {d : Deviation}
    (hE : ∀ env env', E env env' → env.strict = env'.strict ∧ env.stage = env'.stage) :
    Beside E Eq (Render.warn d) (Render.warn d) := by
  unfold Render.warn
  refine .bind ask fun env env' henv => ?_
  rw [(hE env env' henv).1, (hE env env' henv).2]
  split
  · exact .bind (A := Eq) fail fun _ _ _ => record _
  · exact record _

/-- A literal is bound on both sides or written on both. -/
lemma literal {L : FragmentLogic} {data : String} {row : Option Ctx} (l : Literal) :
    Beside (Env.Alike L data row) Eq (Render.literal l) (Render.literal l) := by
  unfold Render.literal
  split
  · exact .pure rfl
  · exact .pure rfl
  · refine .bind ask fun env env' henv => ?_
    rw [henv.inline]
    split
    · exact .pure rfl
    · exact slot l

/-- What every run of the first computation yields is known of its value. -/
lemma yields {data : String} {P : α → Prop} {r r' : Render α}
    (hE : ∀ env env', E env env' → env.dataColumn = data) (h : Beside E A r r')
    (hP : ∀ env e a e', Env.dataColumn env = data → (r.run env).run e = .ok a e' → P a) :
    Beside E (fun a a' => A a a' ∧ P a) r r' := by
  intro env env' m m' henv hlevel
  have hrun := h env env' m m' henv hlevel
  have hyields := hP env m
  generalize (r.run env).run m = x, (r'.run env').run m' = x' at hrun hyields
  cases hrun with
  | ok added ha => exact .ok added ⟨ha, hyields _ _ (hE env env' henv) rfl⟩
  | error added => exact .error added

end Render.Beside

/-! ## Commands -/

/-- The outcome of a command, and that of a run that starts from what the context has emitted: the
same value or error, and of the context only what is emitted has changed, and the named subqueries
if they may. -/
inductive Context.Ends (hoists : Prop) (c : Context) :
    EStateM.Result Error Emission α → EStateM.Result Error Context α → Prop where
  | ok {a e ctes} : (ctes = c.ctes ∨ hoists) →
    Ends hoists c (.ok a e) (.ok a { c with emission := e, ctes })
  | error {x e ctes} : (ctes = c.ctes ∨ hoists) →
    Ends hoists c (.error x e) (.error x { c with emission := e, ctes })

/-- The command does what the function says. -/
def Render.Faithful (hoists : Prop) (r : Render α) (c : Context) : Prop :=
  c.Ends hoists ((r.run c.env).run c.emission) (r.exec.run c)

namespace Command

/-- The end of a command with a last change, which is made in any case. -/
def ending (leave : Context → Context) :
    EStateM.Result Error Context α → EStateM.Result Error Context α
  | .ok a c => .ok a (leave c)
  | .error x c => .error x (leave c)

/-- What is put back at the end is put back after an error as well. -/
lemma run_tryFinally (m : Command α) (leave : Context → Context) (c : Context) :
    (tryFinally m (modify leave : Command Unit)).run c = ending leave (m.run c) := by
  simp only [tryFinally, tryFinally', Functor.map, EStateM.map, EStateM.run]
  cases m c <;> rfl

variable (m : Command α) (c : Context)

/-- The depth of inline writing is back at the end. -/
lemma run_inlined : (inlined m).run c =
    ending (fun c => { c with inlineDepth := c.inlineDepth - 1 })
      (m.run { c with inlineDepth := c.inlineDepth + 1 }) :=
  run_tryFinally ..

/-- The row is back at the end. -/
lemma run_within (scope : Scope) : (within scope m).run c =
    ending ({ · with scope := c.scope }) (m.run { c with scope }) :=
  run_tryFinally ..

/-- The element variable is gone at the end. -/
lemma run_withElement (name source : String) : (withElement name source m).run c =
    ending (fun c => { c with elements := c.elements.tail })
      (m.run { c with elements := (name, source) :: c.elements }) :=
  run_tryFinally ..

/-- The stage is back at the end. -/
lemma run_inStage (stage : Option String) : (inStage stage m).run c =
    ending ({ · with stage := c.stage }) (m.run { c with stage }) :=
  run_tryFinally ..

/-- The text so far is back at the end, and what was written is returned. -/
lemma run_capture (m : Command Unit) : (capture m).run c =
    ending ({ · with buffer := c.buffer })
      ((do m; return (← get).buffer : Command Fragment).run { c with buffer := [] }) :=
  run_tryFinally ..

end Command

namespace Render.Faithful

variable {hoists : Prop} {c : Context}

protected lemma pure (a : α) : (pure a : Render α).Faithful hoists c :=
  .ok (.inl rfl)

/-- What follows starts from a context in which only what is emitted and the named subqueries have
changed. -/
protected lemma bind {r : Render α} {k : α → Render β} (hr : r.Faithful hoists c)
    (hk : ∀ a e ctes, (r.run c.env).run c.emission = .ok a e →
      (k a).Faithful hoists { c with emission := e, ctes }) : (r >>= k).Faithful hoists c := by
  unfold Faithful at hr
  change c.Ends hoists ((r.run c.env >>= fun a => (k a).run c.env).run c.emission)
    ((r.exec >>= fun a => (k a).exec).run c)
  simp only [EStateM.run, bind, EStateM.bind] at hr hk ⊢
  generalize r.run c.env c.emission = x, r.exec c = y at hr hk ⊢
  cases hr with
  | @ok a e ctes hctes =>
    have hsecond := hk a e ctes rfl
    change Context.Ends hoists { c with emission := e, ctes } ((k a).run c.env e)
      ((k a).exec { c with emission := e, ctes }) at hsecond
    dsimp only
    generalize (k a).run c.env e = x, (k a).exec { c with emission := e, ctes } = y at hsecond ⊢
    have htrans {ctes'} (h : ctes' = ctes ∨ hoists) : ctes' = c.ctes ∨ hoists := by
      obtain rfl | h := h
      · exact hctes
      · exact .inr h
    cases hsecond with
    | ok h => exact .ok (htrans h)
    | error h => exact .error (htrans h)
  | error hctes => exact .error hctes

lemma fail (x : Error) : (ofResult (.error x) : Render α).Faithful hoists c :=
  .error (.inl rfl)

lemma ask : (read : Render Env).Faithful hoists c :=
  .ok (.inl rfl)

lemma slot (l : Literal) : (Render.slot l).Faithful hoists c :=
  .ok (.inl rfl)

lemma newAlias (base : String) : (Render.newAlias base).Faithful hoists c := by
  have hcount : (c.emission.addAlias base).aliases.count base =
      c.emission.aliases.count base + 1 := by
    rw [Emission.addAlias, List.count_append, List.count_singleton_self]
  have hends : c.Ends hoists
      (.ok s!"{base}_{(c.emission.addAlias base).aliases.count base}" (c.emission.addAlias base))
      ((Render.newAlias base).exec.run c) := .ok (.inl rfl)
  rwa [hcount] at hends

lemma record (w : Warning) : (Render.record w).Faithful hoists c :=
  .ok (.inl rfl)

lemma hoist (h : hoists) (cte : Cte) : (Render.hoist cte).Faithful hoists c :=
  .ok (.inr h)

lemma warn (d : Deviation) : (Render.warn d).Faithful hoists c := by
  unfold Render.warn
  refine .bind ask fun env e ctes _ => ?_
  split
  · exact .bind (fail _) fun _ _ _ _ => record _
  · exact record _

lemma literal (l : Literal) : (Render.literal l).Faithful hoists c := by
  unfold Render.literal
  split
  · exact .pure _
  · exact .pure _
  · refine .bind ask fun env e ctes _ => ?_
    split
    · exact .pure _
    · exact slot l

/-- A change of the context for a time: it makes the environment, what happens in between is
faithful, and the last change puts everything back. -/
lemma adapt {r : Render α} {change : Command α → Command α} {f : Env → Env} {entered : Context}
    {leave : Context → Context}
    (hchange : (change r.exec).run c = Command.ending leave (r.exec.run entered))
    (henv : entered.env = f c.env) (hemission : entered.emission = c.emission)
    (hctes : entered.ctes = c.ctes)
    (hleave : ∀ e ctes, leave { entered with emission := e, ctes } = { c with emission := e, ctes })
    (hr : r.Faithful hoists entered) : (Render.adapt change f r).Faithful hoists c := by
  unfold Faithful at hr
  change c.Ends hoists ((r.run (f c.env)).run c.emission) ((change r.exec).run c)
  rw [hchange]
  rw [henv, hemission] at hr
  generalize (r.run (f c.env)).run c.emission = x, r.exec.run entered = y at hr
  cases hr with
  | ok h =>
    rw [Command.ending, hleave]
    rw [hctes] at h
    exact .ok h
  | error h =>
    rw [Command.ending, hleave]
    rw [hctes] at h
    exact .error h

/-- A computation that is faithful at the next depth is so when its values are in place. -/
lemma inlined {r : Render α}
    (hr : r.Faithful hoists { c with inlineDepth := c.inlineDepth + 1 }) :
    (Render.inlined r).Faithful hoists c := by
  refine adapt (Command.run_inlined r.exec c) ?_ rfl rfl (fun _ _ => rfl) hr
  simp [Context.env]

/-- A computation that is faithful over a row is so when the row is put in its place. -/
lemma within {scope : Scope} {r : Render α} (hr : r.Faithful hoists { c with scope }) :
    (Render.within scope r).Faithful hoists c :=
  adapt (Command.run_within r.exec c scope) rfl rfl rfl (fun _ _ => rfl) hr

/-- A computation that is faithful with one more element variable is so when it is bound. -/
lemma withElement {name source : String} {r : Render α}
    (hr : r.Faithful hoists { c with elements := (name, source) :: c.elements }) :
    (Render.withElement name source r).Faithful hoists c :=
  adapt (Command.run_withElement r.exec c name source) rfl rfl rfl (fun _ _ => rfl) hr

/-- A computation that is faithful in a stage is so when the stage is entered. -/
lemma inStage {stage : Option String} {r : Render α} (hr : r.Faithful hoists { c with stage }) :
    (Render.inStage stage r).Faithful hoists c :=
  adapt (Command.run_inStage r.exec c stage) rfl rfl rfl (fun _ _ => rfl) hr

/-- What is written apart is taken as it was written. -/
lemma captured {r : Render Fragment} (hr : r.Faithful hoists { c with buffer := [] }) :
    (Render.captured r).Faithful hoists c := by
  unfold Faithful at hr
  change c.Ends hoists ((r.run c.env).run c.emission)
    ((Command.capture (r.exec >>= Command.write)).run c)
  rw [Command.run_capture]
  simp only [EStateM.run, bind, EStateM.bind] at hr ⊢
  change Context.Ends hoists { c with buffer := [] } (r.run c.env c.emission) _ at hr
  generalize r.run c.env c.emission = x, r.exec { c with buffer := [] } = y at hr ⊢
  cases hr with
  | ok h => exact .ok h
  | error h => exact .error h

end Render.Faithful

/-- Runs that add the same and whose commands are faithful, as a relation that respects how
computations are built. -/
def RenderLogic.faithful (hoists checked : Prop) (data : String) : RenderLogic where
  toFragmentLogic := .equal checked
  data := data
  Run row A r r' := Render.Beside (Env.Alike (.equal checked) data row) A r r' ∧
    ∀ c env', Env.Alike (.equal checked) data row (Context.env c) env' → r.Faithful hoists c
  pure h := ⟨.pure h, fun _ _ _ => .pure _⟩
  bind hr hk := by
    refine ⟨.bind hr.1 fun a a' ha => (hk a a' ha).1, fun c env' henv => ?_⟩
    refine .bind (hr.2 c env' henv) fun a e ctes hrun => ?_
    have hbeside := hr.1 c.env env' c.emission c.emission henv ⟨rfl, fun _ => rfl⟩
    rw [hrun] at hbeside
    obtain ⟨a', ha⟩ := hbeside.value
    exact (hk a a' ha).2 { c with emission := e, ctes } env' henv
  Fails _ := True
  fails _ := trivial
  fail _ := ⟨.fail, fun _ _ _ => .fail _⟩
  read := ⟨fun _ _ m m' henv _ => .emits {} henv.envRel m.append_nil.symm m'.append_nil.symm,
    fun _ _ _ => .ask⟩
  literal := ⟨.literal _, fun _ _ _ => .literal _⟩
  newAlias := ⟨.newAlias _, fun _ _ _ => .newAlias _⟩
  warn := ⟨.warn fun _ _ henv => ⟨henv.strict, henv.envRel.stage⟩, fun _ _ _ => .warn _⟩
  captured h := ⟨.adapt (fun _ _ henv => henv) h.1,
    fun c env' henv => .captured (h.2 { c with buffer := [] } env' henv)⟩
  Hoists := hoists
  hoist h := ⟨.hoist _ _, fun _ _ _ => .hoist h _⟩
  inlined h := by
    have hinlined {row} {env env'} (henv : Env.Alike (.equal checked) data row env env') :
        Env.Alike (.equal checked) data row { env with inline := true }
          { env' with inline := true } :=
      { henv with envRel := henv.envRel.inlined, inline := rfl }
    refine ⟨.adapt (fun _ _ henv => hinlined henv) h.1, fun c env' henv => .inlined ?_⟩
    refine h.2 _ { env' with inline := true } ?_
    have := hinlined henv
    simpa [Context.env] using this
  within le hs h := ⟨.adapt (fun _ _ henv => { henv with envRel := henv.envRel.within le hs }) h.1,
    fun c env' henv => .within (h.2 { c with scope := _ } _
      { henv with envRel := henv.envRel.within le hs })⟩
  withElement name source _ _ h := ⟨.adapt (fun _ _ henv =>
      { henv with envRel := henv.envRel.withElement name _ }) h.1,
    fun c env' henv => .withElement (h.2 { c with elements := _ } _
      { henv with envRel := henv.envRel.withElement name _ })⟩
  inStage h := ⟨.adapt (fun _ _ henv => { henv with envRel := henv.envRel.inStage _ }) h.1,
    fun c env' henv => .inStage (h.2 { c with stage := _ } _
      { henv with envRel := henv.envRel.inStage _ })⟩
  yields h hP := ⟨.yields (fun _ _ henv => henv.envRel.dataColumn) h.1 hP, h.2⟩

namespace RenderLogic

variable {hoists checked : Prop} {data : String}

/-- Scalars may be extracted as all types. -/
lemma extracts_faithful (type : Option JsonType) :
    (faithful hoists checked data).toFragmentLogic.Extracts type :=
  FragmentLogic.extracts_all (Dialect.Alike.refl .oracle26ai) rfl type

end RenderLogic

/-! ## Compilations -/

namespace Pipeline

/-- The command of a compilation is faithful. -/
lemma faithful_statement (p : Pipeline) (t : Target) (o : Options) :
    (p.statement t).Faithful True (.of t o) := by
  have hrun := RenderLogic.run_layout (L := .faithful True False t.dataColumn) p rfl
    (fun _ => trivial) (fun _ => trivial) (fun _ => trivial)
    (fun _ _ _ _ _ _ => RenderLogic.extracts_faithful _) FragmentLogic.naming_equal
    FragmentLogic.windowing_equal trivial fun _ => trivial
  refine hrun.2 (.of t o) (.of t o) ⟨⟨.refl _, rfl, rfl, rfl, rfl, rfl, rfl, ?_, ?_, ?_⟩, rfl, rfl⟩
  · exact nofun
  · simp
  · exact List.forall_mem_nil _

/-- What is compiled is what the statement computes in the environment of the compilation. -/
lemma compilation_eq_run (p : Pipeline) (t : Target) (o : Options) :
    p.compilation t o = ((p.statement t).run (.of t o)).run {} := by
  have hends : (Context.of t o).Ends True (((p.statement t).run (.of t o)).run {})
      ((p.statement t).exec.run (.of t o)) := p.faithful_statement t o
  unfold compilation
  generalize ((p.statement t).run (.of t o)).run {} = x,
    (p.statement t).exec.run (.of t o) = y at hends
  cases hends <;> rfl

end Pipeline

/-- Compilations with options that differ in the release alone end in related statements, or in the
same error, which may occur. -/
lemma alike_compilation {L : FragmentLogic}
    (hL : ∀ Γ slot, L.Rel Γ [.token (.bind slot)] [.token (.bind slot)]) {F : Error → Prop}
    (hF : ∀ {e : Error}, e.isOrdinary = true → F e) {p : Pipeline} {t : Target}
    {o o' : Options} (hd : L.Speaks o.dialect o'.dialect) (hstrict : o.strict = o'.strict)
    (hinline : o.inlineBinds = o'.inlineBinds) (hbase : L.Stored (p.collection t))
    (hstages : ∀ n ∈ Stage.nodesOfList (Pipeline.splitTerminal p.stages).1,
      (RenderLogic.alike L hL F hF t.dataColumn).Covers n)
    (hterminal : ∀ s ∈ (Pipeline.splitTerminal p.stages).2, ∀ c ∈ s.tables, L.Stored c)
    (hlists : ∀ s ∈ (Pipeline.splitTerminal p.stages).2, ∀ columns ∈ s.lists t.dataColumn,
      L.Lists columns)
    (hadmits : ∀ env e b e', Env.dataColumn env = t.dataColumn →
      ((Draft.ofCollection (p.collection t) baseAlias []).run env).run e = .ok b e' →
      (RenderLogic.alike L hL F hF t.dataColumn).Admits (Pipeline.splitTerminal p.stages).1 b) :
    Outcome.Alike F (RenderLogic.StatementRel L) (p.compilation t o) (p.compilation t o') := by
  rw [Pipeline.compilation_eq_run, Pipeline.compilation_eq_run]
  have hrun := RenderLogic.run_statement (L := .alike L hL F hF t.dataColumn) rfl hbase hstages
    hterminal hlists hadmits
  refine hrun _ _ _ ⟨⟨hd, rfl, rfl, rfl, rfl, rfl, rfl, ?_, ?_, ?_⟩, hstrict, hinline⟩
  · exact nofun
  · simp
  · exact List.forall_mem_nil _

/-- A compiled statement is related to itself, if every table is stored, scalars may be extracted as
all declared types, and its select lists and windows are accepted. -/
lemma statementRel_compilation {L : FragmentLogic}
    (hL : ∀ Γ slot, L.Rel Γ [.token (.bind slot)] [.token (.bind slot)]) {p : Pipeline} {t : Target}
    {o : Options} {s : Statement} {e : Emission} (hs : p.compilation t o = .ok s e)
    (hd : L.Speaks o.dialect o.dialect) (hstored : ∀ name, L.Stored name) (hw : L.Windowing)
    (hvisible : ∀ x, L.Visible x)
    (htypes : ∀ n ∈ Stage.nodesOfList (Pipeline.splitTerminal p.stages).1,
      ∀ e ∈ n.values ++ n.outputs.map Prod.snd, ∀ m ∈ e.nodes, L.Extracts m.declared?)
    (hlists : ∀ n ∈ Stage.nodesOfList p.stages, ∀ columns ∈ n.lists t.dataColumn, L.Lists columns)
    (hadmits : ∀ env e b e', Env.dataColumn env = t.dataColumn →
      ((Draft.ofCollection (p.collection t) baseAlias []).run env).run e = .ok b e' →
      (RenderLogic.alike L hL (fun _ => True) (fun _ => trivial) t.dataColumn).Admits
        (Pipeline.splitTerminal p.stages).1 b) :
    RenderLogic.StatementRel L s s := by
  rw [← RenderLogic.append_splitTerminal p.stages, Stage.nodesOfList_eq, List.flatMap_append,
    ← Stage.nodesOfList_eq] at hlists
  obtain ⟨hinit, hlast⟩ := List.forall_mem_append.1 hlists
  have hterminal : ∀ w ∈ (Pipeline.splitTerminal p.stages).2, ∀ columns ∈ w.lists t.dataColumn,
      L.Lists columns := fun w hw =>
    hlast w (List.mem_flatMap.2 ⟨w, Option.mem_toList.2 hw, w.self_mem_nodes⟩)
  have halike : Outcome.Alike (fun _ => True) (RenderLogic.StatementRel L) (p.compilation t o)
      (p.compilation t o) :=
    alike_compilation hL (fun _ => trivial) hd rfl rfl (hstored _)
      (fun n hn => ⟨fun c _ => hstored c, htypes n hn, hinit n hn, hw, fun _ => trivial, trivial,
        fun _ => trivial, hvisible⟩)
      (fun _ _ c _ => hstored c) hterminal hadmits
  rw [hs] at halike
  cases halike with
  | ok hs => exact hs

end PipelineSql
