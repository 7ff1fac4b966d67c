import PipelineSql.Compile
import PipelineSql.Proofs.Relation.Pipeline

/-!
# Runs that end alike

A computation is run in two environments. The runs end alike if they give related values, or fail
with the same error, which is one of those that may occur, and emit the same. Where related
fragments are the same fragment, this is a property of what one run renders.
-/

namespace PipelineSql

variable {α β : Type}

/-- The same outcome: related values, or an error that may occur. -/
inductive Outcome.Alike (F : Error → Prop) (A : α → α → Prop) :
    EStateM.Result Error Emission α → EStateM.Result Error Emission α → Prop where
  | ok {a a' e} : A a a' → Alike F A (.ok a e) (.ok a' e)
  | error {x e} : F x → Alike F A (.error x e) (.error x e)

/-- The runs end alike in environments that are related. -/
def Render.Alike (E : Env → Env → Prop) (F : Error → Prop) (A : α → α → Prop) (r r' : Render α) :
    Prop :=
  ∀ env env' e, E env env' → Outcome.Alike F A ((r.run env).run e) ((r'.run env').run e)

namespace Render.Alike

variable {E : Env → Env → Prop} {F : Error → Prop} {A : α → α → Prop} {B : β → β → Prop}

protected lemma pure {a a' : α} (h : A a a') : Alike E F A (pure a) (pure a') :=
  fun _ _ _ _ => .ok h

protected lemma bind {r r' : Render α} {k k' : α → Render β} (hr : Alike E F A r r')
    (hk : ∀ a a', A a a' → Alike E F B (k a) (k' a')) : Alike E F B (r >>= k) (r' >>= k') := by
  intro env env' e henv
  have hfirst := hr env env' e henv
  change Outcome.Alike F B ((r.run env >>= fun a => (k a).run env).run e)
    ((r'.run env' >>= fun a => (k' a).run env').run e)
  simp only [EStateM.run, bind, EStateM.bind] at hfirst ⊢
  generalize r.run env e = x, r'.run env' e = x' at hfirst ⊢
  cases hfirst with
  | ok ha => exact hk _ _ ha env env' _ henv
  | error hx => exact .error hx

/-- A computation in another environment. -/
lemma adapt {E' : Env → Env → Prop} {r r' : Render α} {change change' : Command α → Command α}
    {f f' : Env → Env} (h : ∀ env env', E env env' → E' (f env) (f' env'))
    (hr : Alike E' F A r r') :
    Alike E F A (Render.adapt change f r) (Render.adapt change' f' r') :=
  fun env env' e henv => hr (f env) (f' env') e (h env env' henv)

lemma ask : Alike E F E read read :=
  fun _ _ _ henv => .ok henv

lemma fail {x : Error} (h : F x) : Alike E F A (ofResult (.error x)) (ofResult (.error x)) :=
  fun _ _ _ _ => .error h

lemma newAlias (base : String) :
    Alike E F (SameAlias base) (Render.newAlias base) (Render.newAlias base) :=
  fun _ _ _ _ => .ok ⟨rfl, _, Nat.succ_pos _, rfl⟩

/-- What every run of the first computation yields is known of its value. -/
lemma yields {data : String} {P : α → Prop} {r r' : Render α}
    (hE : ∀ env env', E env env' → env.dataColumn = data) (h : Alike E F A r r')
    (hP : ∀ env e a e', Env.dataColumn env = data → (r.run env).run e = .ok a e' → P a) :
    Alike E F (fun a a' => A a a' ∧ P a) r r' := by
  intro env env' e henv
  have hrun := h env env' e henv
  have hyields := hP env e
  generalize (r.run env).run e = x, (r'.run env').run e = x' at hrun hyields
  cases hrun with
  | ok ha => exact .ok ⟨ha, hyields _ _ (hE env env' henv) rfl⟩
  | error hx => exact .error hx

/-- Both runs record the same warning, or refuse it. -/
lemma warn {d : Deviation} (hF : F (.unsupported (.strict d)))
    (hE : ∀ env env', E env env' → env.strict = env'.strict ∧ env.stage = env'.stage) :
    Alike E F Eq (Render.warn d) (Render.warn d) := by
  have hrecord (w : Warning) : Alike E F Eq (Render.record w) (Render.record w) :=
    fun _ _ _ _ => .ok rfl
  unfold Render.warn
  refine .bind ask fun env env' henv => ?_
  rw [(hE env env' henv).1, (hE env env' henv).2]
  split
  · exact .bind (A := Eq) (fail hF) fun _ _ _ => hrecord _
  · exact hrecord _

end Render.Alike

/-- Environments whose scopes and releases are related and that are the same otherwise. -/
structure Env.Alike (L : FragmentLogic) (data : String) (row : Option Ctx) (env env' : Env) :
    Prop where
  envRel : L.EnvRel data row env env'
  strict : env.strict = env'.strict
  inline : env.inline = env'.inline

/-- A value that is bound or written is related to itself. -/
lemma Render.Alike.literal {L : FragmentLogic} {F : Error → Prop} {data : String}
    {row : Option Ctx} {Γ : Ctx}
    (hL : ∀ slot, L.Rel Γ [.token (.bind slot)] [.token (.bind slot)]) (l : Literal) :
    Render.Alike (Env.Alike L data row) F (L.Rel Γ) (Render.literal l) (Render.literal l) := by
  have hplain : L.Rel Γ [.token (.literal l)] [.token (.literal l)] :=
    L.plain (by cases l <;> rfl)
  unfold Render.literal
  split
  · exact .pure hplain
  · exact .pure hplain
  · refine .bind ask fun env env' henv => ?_
    rw [henv.inline]
    split
    · exact .pure hplain
    · exact fun _ _ _ _ => .ok (hL _)

/-- Fragments are related if they are the same, be sums checked or not. -/
def FragmentLogic.equal (checked : Prop) : FragmentLogic where
  Rel _ f g := f = g
  Stored _ := True
  Speaks d d' := d.Alike d'
  Lists _ := True
  Checked := checked
  features h := h
  mono _ h := h
  nil := rfl
  append h h' := by rw [h, h']
  plain _ := rfl
  text _ _ := rfl
  said _ _ := rfl
  column _ := rfl
  table _ := rfl
  group _ _ _ h := by rw [h]
  name h _ := by rw [h]

/-- Fragments are related if they are the same, and sums are not checked. -/
abbrev FragmentLogic.same : FragmentLogic :=
  .equal False

lemma FragmentLogic.naming_equal {checked : Prop} : (equal checked).Naming := by
  rintro _ subqueries f _ _ rfl
  rfl

lemma FragmentLogic.windowing_equal {checked : Prop} : (equal checked).Windowing :=
  fun _ => rfl

/-- Runs that end alike, as a relation that respects how computations are built. -/
def RenderLogic.alike (L : FragmentLogic)
    (hL : ∀ Γ slot, L.Rel Γ [.token (.bind slot)] [.token (.bind slot)]) (F : Error → Prop)
    (hF : ∀ {e : Error}, e.isOrdinary = true → F e) (data : String) : RenderLogic where
  toFragmentLogic := L
  data := data
  Run row := Render.Alike (Env.Alike L data row) F
  pure := .pure
  bind := .bind
  Fails := F
  fails := hF
  fail := .fail
  read _ _ _ henv := .ok henv.envRel
  literal := .literal (hL _) _
  newAlias := .newAlias _
  warn := .warn (hF rfl) fun _ _ henv => ⟨henv.strict, henv.envRel.stage⟩
  captured := .adapt fun _ _ henv => henv
  hoist _ _ _ _ _ := .ok rfl
  inlined := .adapt fun _ _ henv => { henv with envRel := henv.envRel.inlined, inline := rfl }
  within le hs := .adapt fun _ _ henv => { henv with envRel := henv.envRel.within le hs }
  withElement name := .adapt fun _ _ henv => { henv with envRel := henv.envRel.withElement name _ }
  inStage := .adapt fun _ _ henv => { henv with envRel := henv.envRel.inStage _ }
  yields := .yields fun _ _ henv => henv.envRel.dataColumn

end PipelineSql
