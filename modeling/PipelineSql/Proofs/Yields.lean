import PipelineSql.Proofs.Relation.Render
import PipelineSql.Render.Accumulate

/-!
# What a computation yields

A computation yields values with a property if every run of it that ends without an error does. The
property follows how the computation is built, whatever has been emitted before.
-/

namespace PipelineSql

namespace Render

variable {α β : Type} {env : Env} {P : α → Prop} {Q : β → Prop}

/-- Every run in the environment that ends well ends in a value with the property. -/
def Yields (r : Render α) (env : Env) (P : α → Prop) : Prop :=
  ∀ ⦃e a e'⦄, (r.run env).run e = .ok a e' → P a

/-- A weaker property. -/
lemma Yields.imp {P' : α → Prop} {r : Render α} (h : r.Yields env P) (hP : ∀ a, P a → P' a) :
    r.Yields env P' := by
  intro e a e' hr
  exact hP a (h hr)

/-- A property that holds under a condition. -/
lemma yields_imp {c : Prop} {r : Render α} (h : c → r.Yields env P) :
    r.Yields env fun a => c → P a :=
  fun _ _ _ hr hc => h hc hr

lemma yields_pure {a : α} (h : P a) : (pure a : Render α).Yields env P := by
  intro e a' e' hr
  cases hr
  exact h

/-- One computation after another, which may use what is known of the first value. -/
lemma yields_bind {r : Render α} {k : α → Render β} (hr : r.Yields env P)
    (hk : ∀ a, P a → (k a).Yields env Q) : (r >>= k).Yields env Q := by
  intro e b e' h
  have h : ((r.run env) >>= fun a => (k a).run env).run e = .ok b e' := h
  simp only [EStateM.run, bind, EStateM.bind] at h
  split at h
  · next a e₁ ha => exact hk a (hr ha) h
  · cases h

/-- One computation after another, of which nothing is known. -/
lemma yields_then {r : Render α} {k : α → Render β} (hk : ∀ a, (k a).Yields env Q) :
    (r >>= k).Yields env Q :=
  yields_bind (P := fun _ => True) (fun _ _ _ _ => trivial) fun a _ => hk a

/-- What follows may use the environment. -/
lemma yields_read {k : Env → Render β} (h : (k env).Yields env Q) : (read >>= k).Yields env Q := by
  refine yields_bind (P := fun env' => env' = env) ?_ ?_
  · intro e env' e' hr
    cases hr
    rfl
  · rintro _ rfl
    exact h

/-- A result that is there. -/
lemma yields_lift {x : Result α} (h : ∀ a, x = .ok a → P a) : (liftM x : Render α).Yields env P := by
  cases x with
  | ok a => exact yields_pure (h a rfl)
  | error err =>
    intro e a e' hr
    cases hr

lemma yields_fault (f : Fault) : (liftM (fault f : Result α) : Render α).Yields env P :=
  yields_lift fun _ h => nomatch h

lemma yields_unsupported (l : Limitation) :
    (liftM (unsupported l : Result α) : Render α).Yields env P :=
  yields_lift fun _ h => nomatch h

lemma yields_ite {c : Prop} [Decidable c] {r s : Render α} (h : c → r.Yields env P)
    (h' : ¬c → s.Yields env P) : (if c then r else s).Yields env P := by
  split
  · next hc => exact h hc
  · next hc => exact h' hc

/-- A warning under a condition. -/
lemma yields_warn_if {c : Prop} [Decidable c] {d : Deviation} {k : PUnit → Render β}
    (h : (k ⟨⟩).Yields env Q) : (if c then warn d >>= k else k ⟨⟩).Yields env Q :=
  yields_ite (fun _ => yields_then fun _ => h) fun _ => h

/-- A computation for each element, with what it yields for that element. -/
lemma yields_mapM {R : α → β → Prop} {xs : List α} {f : α → Render β}
    (h : ∀ x ∈ xs, (f x).Yields env (R x)) : (xs.mapM f).Yields env (List.Forall₂ R xs) := by
  rw [← List.mapM'_eq_mapM]
  induction xs with
  | nil => exact yields_pure .nil
  | cons x xs ih =>
    obtain ⟨hx, hxs⟩ := List.forall_mem_cons.1 h
    refine yields_bind hx fun y hy => ?_
    refine yields_bind (ih hxs) fun ys hys => ?_
    exact yields_pure (.cons hy hys)

/-- A computation for each element, all of which yield values with one property. -/
lemma yields_mapM_forall {xs : List α} {f : α → Render β} (h : ∀ x ∈ xs, (f x).Yields env Q) :
    (xs.mapM f).Yields env fun ys => ys.length = xs.length ∧ ∀ y ∈ ys, Q y := by
  refine (yields_mapM (R := fun _ y => Q y) h).imp fun ys hys => ⟨hys.length_eq.symm, ?_⟩
  clear h
  induction hys with
  | nil => exact List.forall_mem_nil _
  | cons hy _ ih => exact List.forall_mem_cons.2 ⟨hy, ih⟩

/-- A computation for an element that may be absent. -/
lemma yields_optionMapM {o : Option α} {f : α → Render β} (h : ∀ x ∈ o, (f x).Yields env Q) :
    (o.mapM f).Yields env fun o' => ∀ y ∈ o', Q y := by
  cases o with
  | none => exact yields_pure (by simp)
  | some x => exact yields_bind (h x rfl) fun y hy => yields_pure (by simpa using hy)

/-- Against another row. -/
lemma yields_within {scope : Scope} {r : Render α} (h : r.Yields { env with scope } P) :
    (within scope r).Yields env P := h

/-- As part of a stage. -/
lemma yields_inStage {stage : Option String} {r : Render α} (h : r.Yields { env with stage } P) :
    (inStage stage r).Yields env P := h

/-- Apart from the text so far. -/
lemma yields_captured {P : Fragment → Prop} {r : Render Fragment} (h : r.Yields env P) :
    (captured r).Yields env P := h

/-- With every value written in place. -/
lemma yields_inlined {r : Render α} (h : r.Yields { env with inline := true } P) :
    (inlined r).Yields env P := h

/-- The argument of an accumulator is the one that it is given. -/
lemma yields_argumentOf {name : String} {arg : Option Reading} {k : Reading → Render α}
    (hk : ∀ r, arg = some r → (k r).Yields env P) :
    (liftM (argumentOf name arg) >>= k).Yields env P := by
  refine yields_bind (yields_lift (P := fun r => arg = some r) fun r h => ?_) hk
  cases arg with
  | none => cases h
  | some r' =>
    cases h
    rfl

end Render

end PipelineSql
