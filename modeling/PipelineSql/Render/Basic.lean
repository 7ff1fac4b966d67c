import PipelineSql.Render.Context
import PipelineSql.Expr.Fields
import PipelineSql.Expr.Shape

/-!
# Rendering

Rendering is a command on the context. Seen from outside, it reads an environment, which it cannot
change, and adds to an emission: the values that will be bound, the aliases that were handed out and
the warnings about deviations. What was emitted before an error is kept.
-/

namespace PipelineSql

namespace Emission

/-- Is the capability the worst of the warnings? -/
def Told (e : Emission) : Prop :=
  e.capability = .ofWarnings e.warnings

/-- One emission goes on another: nothing that was emitted is lost, and the capability goes with the
warnings. -/
instance : LE Emission where
  le e e' := e.values <+: e'.values ∧ e.aliases <+: e'.aliases ∧ e.warnings <+: e'.warnings ∧
    (e.Told → e'.Told)

theorem le_refl (e : Emission) : e ≤ e :=
  ⟨List.prefix_rfl, List.prefix_rfl, List.prefix_rfl, id⟩

theorem le_trans {e₁ e₂ e₃ : Emission} (h₁ : e₁ ≤ e₂) (h₂ : e₂ ≤ e₃) : e₁ ≤ e₃ :=
  ⟨h₁.1.trans h₂.1, h₁.2.1.trans h₂.2.1, h₁.2.2.1.trans h₂.2.2.1, h₂.2.2.2 ∘ h₁.2.2.2⟩

theorem told_addWarning {e : Emission} (h : e.Told) (w : Warning) : (e.addWarning w).Told := by
  simp only [Told, addWarning, Capability.ofWarnings, List.foldl_append] at h ⊢
  rw [h]
  rfl

/-- What has been emitted at the end of a run. -/
def final {α : Type} : EStateM.Result Error Emission α → Emission
  | .ok _ e => e
  | .error _ e => e

end Emission

/-- Computations that render: a command, and what it computes from an environment and from what was
emitted. They only ever add to that. -/
structure Render (α : Type) where
  exec : Command α
  run : Env → EStateM Error Emission α
  grows : ∀ env e, e ≤ Emission.final ((run env).run e)

namespace Render

/-- A result without an effect. -/
protected def pure {α : Type} (a : α) : Render α where
  exec := pure a
  run _ := pure a
  grows _ e := e.le_refl

/-- One computation after another. -/
protected def bind {α β : Type} (r : Render α) (k : α → Render β) : Render β where
  exec := r.exec >>= fun a => (k a).exec
  run env := r.run env >>= fun a => (k a).run env
  grows env e := by
    have hr := r.grows env e
    simp only [EStateM.run, bind, EStateM.bind] at hr ⊢
    split
    · next a e' h =>
      rw [h] at hr
      exact Emission.le_trans hr ((k a).grows env e')
    · next h => rwa [h] at hr

instance : Monad Render where
  pure := Render.pure
  bind := Render.bind

/-- A result as a computation. -/
def ofResult {α : Type} : Result α → Render α
  | .ok a => pure a
  | .error err =>
    { exec := throw err, run := fun _ => throw err, grows := fun _ e => e.le_refl }

instance : MonadLift Result Render := ⟨ofResult⟩

instance : MonadReaderOf Env Render where
  read :=
    { exec := return (← get).env, run := fun env => pure env, grows := fun _ e => e.le_refl }

/-- Emit a value behind a bind slot. -/
def slot (l : Literal) : Render Fragment where
  exec := do
    let slots := (← get).emission.values.length
    Command.emit (·.addValue l)
    return (Token.bind slots : Fragment)
  run _ e := .ok (Token.bind e.values.length : Fragment) (e.addValue l)
  grows _ _ := ⟨List.prefix_append .., List.prefix_rfl, List.prefix_rfl, id⟩

/-- A value: null and booleans are always written in place, all else is bound unless the environment
asks for text. -/
def literal (l : Literal) : Render Fragment := do
  match l with
  | .null => return Fragment.null
  | .bool b => return (Token.bool b : Fragment)
  | _ => if (← read).inline then return (Token.literal l : Fragment) else slot l

/-- A new alias: the base with the number of its use. -/
def newAlias (base : String) : Render String where
  exec := do
    Command.emit (·.addAlias base)
    return s!"{base}_{(← get).emission.aliases.count base}"
  run _ e := .ok s!"{base}_{e.aliases.count base + 1}" (e.addAlias base)
  grows _ _ := ⟨List.prefix_rfl, List.prefix_append .., List.prefix_rfl, id⟩

/-- Add a warning. -/
def record (w : Warning) : Render Unit where
  exec := Command.emit (·.addWarning w)
  run _ e := .ok () (e.addWarning w)
  grows _ _ :=
    ⟨List.prefix_rfl, List.prefix_rfl, List.prefix_append .., (Emission.told_addWarning · w)⟩

/-- Record a deviation; in strict mode a partial one is an error. -/
def warn (d : Deviation) : Render Unit := do
  let env ← read
  if env.strict && d.capability = .partly then unsupported (.strict d)
  record ⟨env.stage, d⟩

/-- Add a named subquery to the context. -/
def hoist (cte : Cte) : Render Unit where
  exec := Command.hoist cte
  run _ := pure ()
  grows _ e := e.le_refl

/-- Render in another environment, with the command that makes it. -/
def adapt {α : Type} (change : Command α → Command α) (f : Env → Env) (r : Render α) :
    Render α where
  exec := change r.exec
  run env := r.run (f env)
  grows env := r.grows (f env)

/-- Write the text apart from the text so far, and take it from there. -/
def captured (r : Render Fragment) : Render Fragment :=
  adapt (fun m => Command.capture (m >>= Command.write)) id r

/-- Render with every value written in place. -/
def inlined {α : Type} (r : Render α) : Render α :=
  adapt Command.inlined (fun env => { env with inline := true }) r

/-- Render against another row. -/
def within {α : Type} (scope : Scope) (r : Render α) : Render α :=
  adapt (Command.within scope) (fun env => { env with scope }) r

/-- Render with an element variable bound to the rows of a source. -/
def withElement {α : Type} (name source : String) (r : Render α) : Render α :=
  adapt (Command.withElement name source)
    (fun env => { env with elements := (name, source) :: env.elements }) r

/-- Render as part of a stage. -/
def inStage {α : Type} (stage : Option String) (r : Render α) : Render α :=
  adapt (Command.inStage stage) (fun env => { env with stage }) r

end Render

end PipelineSql
