import Mathlib.Data.List.Induction
import PipelineSql.Proofs.Binding
import PipelineSql.Proofs.Relation.Faithful

/-!
# Strict compilation

A strict compilation refuses a partial deviation. Apart from that it is the compilation that is not
strict: up to the first partial warning the two write the same fragments and emit the same values,
aliases and warnings, and there the strict one ends with an error that names the deviation.

Main result: how a strict compilation ends is settled by how the other one ends, and the capability
of a result is the worst that its warnings name.
-/

namespace PipelineSql

/-! ## Capabilities -/

namespace Capability

lemma rank_worse (a b : Capability) : (a.worse b).rank = max a.rank b.rank := by
  cases a <;> cases b <;> rfl

lemma rank_injective {a b : Capability} (h : a.rank = b.rank) : a = b := by
  cases a <;> cases b <;> first | rfl | cases h

lemma worse_eq_or (a b : Capability) : a.worse b = a ∨ a.worse b = b := by
  cases a <;> cases b <;> decide

/-- One more warning can only make it worse. -/
lemma ofWarnings_concat (ws : List Warning) (w : Warning) :
    ofWarnings (ws ++ [w]) = (ofWarnings ws).worse w.deviation.capability := by
  simp [ofWarnings]

lemma rank_le_ofWarnings {ws : List Warning} {w : Warning} (h : w ∈ ws) :
    w.deviation.capability.rank ≤ (ofWarnings ws).rank := by
  induction ws using List.reverseRecOn with
  | nil => cases h
  | append_singleton ws v ih =>
    rw [ofWarnings_concat, rank_worse]
    rcases List.mem_append.1 h with h | h
    · exact Nat.le_trans (ih h) (Nat.le_max_left ..)
    · rw [List.mem_singleton.1 h]
      exact Nat.le_max_right ..

lemma ofWarnings_eq_full_or (ws : List Warning) :
    ofWarnings ws = .full ∨ ∃ w ∈ ws, ofWarnings ws = w.deviation.capability := by
  induction ws using List.reverseRecOn with
  | nil => exact .inl rfl
  | append_singleton ws v ih =>
    rw [ofWarnings_concat]
    rcases worse_eq_or (ofWarnings ws) v.deviation.capability with h | h
    · rw [h]
      exact ih.imp_right fun ⟨w, hw, he⟩ => ⟨w, List.mem_append_left _ hw, he⟩
    · exact .inr ⟨v, by simp, h⟩

end Capability

/-- Every deviation is one: none leaves the statement faithful. -/
lemma Deviation.capability_ne_full (d : Deviation) : d.capability ≠ .full := by
  cases d <;> nofun

/-- The statement is faithful exactly if there is no warning. -/
lemma Capability.ofWarnings_eq_full_iff {ws : List Warning} : ofWarnings ws = .full ↔ ws = [] := by
  constructor
  · intro h
    rw [List.eq_nil_iff_forall_not_mem]
    intro w hw
    have hle := rank_le_ofWarnings hw
    rw [h] at hle
    exact w.deviation.capability_ne_full (rank_injective (Nat.le_zero.1 hle))
  · rintro rfl
    rfl

/-! ## Runs up to the first partial warning -/

/-- Is the statement wrong in some cases? -/
def Warning.isPartial (w : Warning) : Bool :=
  w.deviation.capability = .partly

/-- The first partial warning. -/
def Emission.partial? (e : Emission) : Option Warning :=
  e.warnings.find? Warning.isPartial

/-- What was found stays the first when more is emitted. -/
lemma Emission.partial?_of_le {e e' : Emission} {w : Warning} (le : e ≤ e')
    (h : e.partial? = some w) : e'.partial? = some w := by
  obtain ⟨ws, hws⟩ := le.2.2.1
  rw [partial?, ← hws, List.find?_append, ← partial?, h, Option.some_or]

/-- The outcome of a run, and that of the strict run beside it: the same as long as there is no
partial warning, and else the refusal of the first. -/
inductive Outcome.Cut {α : Type} (A : α → α → Prop) :
    EStateM.Result Error Emission α → EStateM.Result Error Emission α → Prop where
  | kept {a a' e} : e.partial? = none → A a a' → Cut A (.ok a e) (.ok a' e)
  | failed {x e} : e.partial? = none → Cut A (.error x e) (.error x e)
  | refused {x w e} : (Emission.final x).partial? = some w →
    Cut A x (.error (.unsupported (.strict w.deviation)) e)

/-- Environments that differ in strictness alone. -/
structure Env.Strictness (data : String) (row : Option Ctx) (env env' : Env) : Prop where
  envRel : FragmentLogic.same.EnvRel data row env env'
  lenient : env.strict = false
  strict : env'.strict = true
  inline : env'.inline = env.inline

/-- The strict run is the other one up to the first partial warning. -/
def Render.CutShort {α : Type} (data : String) (row : Option Ctx) (A : α → α → Prop)
    (r r' : Render α) : Prop :=
  ∀ env env' e, env.Strictness data row env' → e.partial? = none →
    Outcome.Cut A ((r.run env).run e) ((r'.run env').run e)

namespace Render.CutShort

variable {α β : Type} {data : String} {row : Option Ctx} {Γ Δ : Ctx}

protected lemma pure {A : α → α → Prop} {a a' : α} (h : A a a') :
    CutShort data row A (pure a) (pure a') :=
  fun _ _ _ _ he => .kept he h

/-- A run that has been refused is over, and the other one keeps the warning. -/
protected lemma bind {A : α → α → Prop} {B : β → β → Prop} {r r' : Render α}
    {k k' : α → Render β} (hr : CutShort data row A r r')
    (hk : ∀ a a', A a a' → CutShort data row B (k a) (k' a')) :
    CutShort data row B (r >>= k) (r' >>= k') := by
  intro env env' e henv he
  have hfirst := hr env env' e henv he
  have hle := InStep.final_le_bind r k env e
  change Outcome.Cut B ((r.run env >>= fun a => (k a).run env).run e)
    ((r'.run env' >>= fun a => (k' a).run env').run e)
  change _ ≤ Emission.final ((r.run env >>= fun a => (k a).run env).run e) at hle
  simp only [EStateM.run, bind, EStateM.bind] at hfirst hle ⊢
  generalize r.run env e = x, r'.run env' e = x' at hfirst hle ⊢
  cases hfirst with
  | kept he ha => exact hk _ _ ha env env' _ henv he
  | failed he => exact .failed he
  | refused hw => exact .refused (Emission.partial?_of_le hle hw)

/-- A computation in another environment. -/
lemma adapt {A : α → α → Prop} {r r' : Render α} {row' : Option Ctx}
    {change change' : Command α → Command α} {f f' : Env → Env}
    (h : ∀ env env', env.Strictness data row env' → (f env).Strictness data row' (f' env'))
    (hr : CutShort data row' A r r') :
    CutShort data row A (Render.adapt change f r) (Render.adapt change' f' r') :=
  fun env env' e henv he => hr (f env) (f' env') e (h env env' henv) he

lemma ask : CutShort data row (Env.Strictness data row) read read :=
  fun _ _ _ henv he => .kept he henv

lemma fail {A : α → α → Prop} {x : Error} :
    CutShort data row A (ofResult (.error x)) (ofResult (.error x)) :=
  fun _ _ _ _ he => .failed he

lemma slot (l : Literal) : CutShort data row Eq (Render.slot l) (Render.slot l) :=
  fun _ _ _ _ he => .kept he rfl

lemma newAlias (base : String) :
    CutShort data row (SameAlias base) (Render.newAlias base) (Render.newAlias base) :=
  fun _ _ _ _ he => .kept he ⟨rfl, _, Nat.succ_pos _, rfl⟩

lemma literal (l : Literal) : CutShort data row Eq (Render.literal l) (Render.literal l) := by
  unfold Render.literal
  split
  · exact .pure rfl
  · exact .pure rfl
  · refine .bind ask fun env env' henv => ?_
    rw [henv.inline]
    split
    · exact .pure rfl
    · exact slot l

lemma record {w : Warning} (hw : w.isPartial = false) :
    CutShort data row Eq (Render.record w) (Render.record w) := by
  intro env env' e henv he
  refine .kept ?_ rfl
  rw [Emission.partial?, Emission.addWarning, List.find?_append, ← Emission.partial?, he]
  simp [hw]

/-- A partial deviation is recorded on one side and refused on the other. -/
lemma refuse {w : Warning} {k : Unit → Render Unit} (hw : w.isPartial = true) :
    CutShort data row Eq (Render.record w)
      (ofResult (.error (.unsupported (.strict w.deviation))) >>= k) := by
  intro env env' e henv he
  refine .refused (w := w) ?_
  change (e.addWarning w).partial? = some w
  rw [Emission.partial?, Emission.addWarning, List.find?_append, ← Emission.partial?, he]
  simp [hw]

/-- What every run of the first computation yields is known of its value. -/
lemma yields {A : α → α → Prop} {P : α → Prop} {r r' : Render α} (h : CutShort data row A r r')
    (hP : ∀ env e a e', Env.dataColumn env = data → (r.run env).run e = .ok a e' → P a) :
    CutShort data row (fun a a' => A a a' ∧ P a) r r' := by
  intro env env' e henv he
  have hrun := h env env' e henv he
  have hyields := hP env e
  generalize (r.run env).run e = x, (r'.run env').run e = x' at hrun hyields
  cases hrun with
  | kept he ha => exact .kept he ⟨ha, hyields _ _ henv.envRel.dataColumn rfl⟩
  | failed he => exact .failed he
  | refused hw => exact .refused hw

/-- The one place where strictness counts. -/
lemma warn (d : Deviation) : CutShort data row Eq (Render.warn d) (Render.warn d) := by
  unfold Render.warn
  refine .bind ask fun env env' henv => ?_
  rw [henv.lenient, henv.strict, henv.envRel.stage]
  by_cases hd : d.capability = .partly
  · rw [if_neg (by simp), if_pos (by simpa using hd)]
    exact refuse (w := ⟨env'.stage, d⟩) (decide_eq_true hd)
  · rw [if_neg (by simp), if_neg (by simpa using hd)]
    exact record (decide_eq_false hd)

end Render.CutShort

/-- Strict runs beside others, as a relation that respects how computations are built. -/
def RenderLogic.cutShort (data : String) : RenderLogic where
  toFragmentLogic := .same
  data := data
  Run := Render.CutShort data
  pure := .pure
  bind := .bind
  Fails _ := True
  fails _ := trivial
  fail _ := .fail
  read _ _ _ henv he := .kept he henv.envRel
  literal := .literal _
  newAlias := .newAlias _
  warn := .warn _
  captured := .adapt fun _ _ henv => henv
  hoist _ _ _ _ _ he := .kept he rfl
  inlined := .adapt fun _ _ henv => { henv with envRel := henv.envRel.inlined, inline := rfl }
  within le hs := .adapt fun _ _ henv => { henv with envRel := henv.envRel.within le hs }
  withElement name := .adapt fun _ _ henv =>
    { henv with envRel := henv.envRel.withElement name _ }
  inStage := .adapt fun _ _ henv => { henv with envRel := henv.envRel.inStage _ }
  yields := .yields

/-! ## Compilations -/

/-- A strict compilation is the other one, up to the first partial warning. -/
lemma cut_compilation (p : Pipeline) (t : Target) (o : Options) :
    Outcome.Cut (fun s s' => ∀ d, s.fragment d = s'.fragment d)
      (p.compilation t { o with strict := false }) (p.compilation t { o with strict := true }) := by
  rw [Pipeline.compilation_eq_run, Pipeline.compilation_eq_run]
  let L := RenderLogic.cutShort t.dataColumn
  have hextracts := FragmentLogic.extracts_all (L := L.toFragmentLogic)
    (Dialect.Alike.refl .oracle26ai) rfl
  refine RenderLogic.run_layout (L := L) p rfl (fun _ => trivial) (fun _ => trivial)
    (fun _ => trivial) (fun _ _ _ _ _ _ => hextracts _) FragmentLogic.naming_equal
    FragmentLogic.windowing_equal trivial (fun _ => trivial) _ _ _ ⟨?_, rfl, rfl, rfl⟩ rfl
  exact ⟨.refl _, rfl, rfl, rfl, rfl, rfl, rfl, nofun, nofun, nofun⟩

/-- Results of the two ways to compile: how the strict one ends is settled by the other. -/
inductive Compiled.Cut : Result Compiled → Result Compiled → Prop where
  | kept {c : Compiled} : c.warnings.find? Warning.isPartial = none → Cut (.ok c) (.ok c)
  | refused {c : Compiled} {w} : c.warnings.find? Warning.isPartial = some w →
    Cut (.ok c) (.error (.unsupported (.strict w.deviation)))
  | failed {x y} : Cut (.error x) (.error y)

lemma cut_compile (p : Pipeline) (t : Target) (o : Options) :
    Compiled.Cut (compile p t { o with strict := false })
      (compile p t { o with strict := true }) := by
  have hadmitted :
      admitted p t { o with strict := false } = admitted p t { o with strict := true } := rfl
  unfold compile translate
  rw [hadmitted]
  cases admitted p t { o with strict := true } with
  | error x => exact .failed
  | ok q =>
    have hcut := cut_compilation q t o
    simp only [bind, Except.bind]
    generalize q.compilation t { o with strict := false } = x,
      q.compilation t { o with strict := true } = y at hcut ⊢
    cases hcut with
    | @kept s s' e he hs =>
      simp only [hs]
      exact .kept he
    | failed he => exact .failed
    | @refused x w e hw =>
      cases x with
      | ok s e => exact .refused hw
      | error x e => exact .failed

/-- The capability of a result has been kept along with its warnings. -/
lemma capability_of_compile {p : Pipeline} {t : Target} {o : Options} {c : Compiled}
    (h : compile p t o = .ok c) : c.capability = .ofWarnings c.warnings := by
  unfold compile translate at h
  cases hq : admitted p t o with
  | error x =>
    rw [hq] at h
    cases h
  | ok q =>
    have htold := ((q.statement t).grows (.of t o) {}).2.2.2 rfl
    rw [← q.compilation_eq_run] at htold
    simp only [hq, bind, Except.bind] at h
    generalize q.compilation t o = x at h htold
    cases x with
    | error x e => cases h
    | ok s e =>
      cases h
      exact htold

/-- A strict compilation gives the same result as the other one if that has no partial warning. If
it has some, the strict one is refused for the first, and if the other one fails, it fails. The
capability of a result is the worst that its warnings name, and full exactly if there are none. -/
theorem compile_strict_cut (p : Pipeline) (t : Target) (o : Options) :
    (∀ c, compile p t { o with strict := false } = .ok c →
      c.warnings.find? Warning.isPartial = none →
      compile p t { o with strict := true } = .ok c) ∧
    (∀ c w, compile p t { o with strict := false } = .ok c →
      c.warnings.find? Warning.isPartial = some w →
      ∃ l, compile p t { o with strict := true } = .error (.unsupported l) ∧
        l.feature = w.deviation.feature ∧ l.reason = w.deviation.message) ∧
    (∀ x, compile p t { o with strict := false } = .error x →
      ∃ y, compile p t { o with strict := true } = .error y) ∧
    ∀ c, compile p t o = .ok c →
      (∀ w ∈ c.warnings, w.deviation.capability.rank ≤ c.capability.rank) ∧
      (c.capability = .full ∨ ∃ w ∈ c.warnings, c.capability = w.deviation.capability) ∧
      (c.capability = .full ↔ c.warnings = []) := by
  have hcut := cut_compile p t o
  generalize compile p t { o with strict := false } = x,
    compile p t { o with strict := true } = y at hcut ⊢
  refine ⟨?_, ?_, ?_, fun c hc => ?_⟩
  · rintro c rfl hc
    cases hcut with
    | kept => rfl
    | refused hw => rw [hc] at hw; cases hw
  · rintro c w rfl hw
    cases hcut with
    | kept hc => rw [hc] at hw; cases hw
    | refused hw' =>
      obtain rfl : _ = w := Option.some.inj (hw'.symm.trans hw)
      exact ⟨_, rfl, rfl, rfl⟩
  · rintro x rfl
    cases hcut
    exact ⟨_, rfl⟩
  · rw [capability_of_compile hc]
    exact ⟨fun _ => Capability.rank_le_ofWarnings, Capability.ofWarnings_eq_full_or _,
      Capability.ofWarnings_eq_full_iff⟩

/-- A facet that redacts. Only the top level of a document is redacted, which is a partial
counterpart. -/
def publicFacet : Pipeline :=
  let level : Expr := .field { path := ⟨["level"]⟩ }
  { stages := [.facet [(⟨["public"]⟩, [.redact (.cond
      (.compare .eq level (.lit (.string "public"))) (.var "KEEP" none) (.var "PRUNE" none))])]] }

/-- The facet can be compiled, and is refused when compilation is strict. -/
theorem publicFacet_refused :
    ∃ c l, compile publicFacet { collection := "orders" } { strict := false } = .ok c ∧
      compile publicFacet { collection := "orders" } { strict := true } = .error (.unsupported l) ∧
      l.feature = "$redact" := by
  have hcheck : ((compile publicFacet { collection := "orders" } { strict := false }).toOption.bind
      fun c => c.warnings.find? Warning.isPartial) = some ⟨some "$redact", .redactLevel⟩ := by
    decide +kernel
  cases h : compile publicFacet { collection := "orders" } { strict := false } with
  | error x =>
    rw [h] at hcheck
    cases hcheck
  | ok c =>
    rw [h] at hcheck
    obtain ⟨l, hl, hfeature, -⟩ :=
      (compile_strict_cut publicFacet { collection := "orders" } {}).2.1 c _ h hcheck
    exact ⟨c, l, rfl, hl, hfeature⟩

end PipelineSql
