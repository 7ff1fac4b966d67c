import PipelineSql.Proofs.Reading
import PipelineSql.Proofs.Relation.Scope
import PipelineSql.Render.Elements

/-!
# Relations on computations

A `RenderLogic` adds to a relation on fragments a relation `Run` on computations that render. It is
given by its rules: related results, one computation after another, and what the primitive
computations do. The rules make no mention of what has been emitted, so that a relation is free to
depend on it.
-/

namespace PipelineSql

/-- Computations are equal if their commands and their runs are. -/
lemma Render.ext {α : Type} {r r' : Render α} (hexec : r.exec = r'.exec)
    (hrun : ∀ env, r.run env = r'.run env) : r = r' := by
  cases r with
  | mk exec run _ =>
    cases r' with
    | mk exec' run' _ =>
      obtain rfl : exec = exec' := hexec
      obtain rfl : run = run' := funext hrun
      rfl

instance : LawfulMonad Render :=
  LawfulMonad.mk' Render
    (fun r => Render.ext (bind_pure r.exec) fun env => bind_pure (r.run env))
    (fun _ _ => rfl)
    (fun r k l => Render.ext (bind_assoc r.exec (fun a => (k a).exec) fun b => (l b).exec)
      fun env => bind_assoc (r.run env) (fun a => (k a).run env) (fun b => (l b).run env))

namespace FragmentLogic

variable (L : FragmentLogic)

/-- What may be read of two rows is related: what fields stand for and what lookups have found, with
the field of the row by which it can be counted, and the whole documents. -/
structure SightRel (Γ : Ctx) (σ σ' : Scope) : Prop where
  resolve : ∀ {p}, L.Visible (.field p) →
    L.ResolvedRel Γ (σ.resolve p false) (σ'.resolve p false)
  lookup : ∀ {p}, L.Visible (.field p) → σ.lookup? p = σ'.lookup? p
  found : ∀ {p l key}, L.Visible (.field p) → σ'.lookup? p = some l → l.key = some key →
    L.Stored key.source ∧
      L.ResolvedRel Γ (σ.resolve key.localField false) (σ'.resolve key.localField false)
  document : L.Visible .wholeDocument → ∀ {d d'}, L.Speaks d d' →
    L.Rel Γ (σ.documentValue d) (σ'.documentValue d')

variable {L} in
lemma SightRel.mono {Γ Δ : Ctx} {σ σ' : Scope} (h : L.SightRel Γ σ σ') (le : Γ ≤ Δ) :
    L.SightRel Δ σ σ' where
  resolve hv := (h.resolve hv).mono le
  lookup := h.lookup
  found hv hl hkey := ⟨(h.found hv hl hkey).1, (h.found hv hl hkey).2.mono le⟩
  document hv _ _ hd := L.mono le (h.document hv hd)

variable {L} in
/-- Related rows are related in what may be read of them. -/
lemma ScopeRel.sight {Γ : Ctx} {σ σ' : Scope} (h : L.ScopeRel Γ σ σ') : L.SightRel Γ σ σ' where
  resolve _ := h.resolve _ _
  lookup _ := h.lookup_eq _
  found _ hl hkey := ⟨h.stored hl hkey, h.resolve _ _⟩
  document _ _ _ hd := h.documentValue hd

/-- Environments of the releases of the two sides, with the same settings otherwise, for documents
in the column `data`. Sums are checked only where they may be. Where there is a row, what may be read
of it is related and the rows of element variables are in sight; a stage has no row and no element
variables. -/
structure EnvRel (data : String) (row : Option Ctx) (env env' : Env) : Prop where
  speaks : L.Speaks env.dialect env'.dialect
  schema : env.schema = env'.schema
  dataColumn : env.dataColumn = data
  dataColumn' : env'.dataColumn = data
  stage : env.stage = env'.stage
  elements : env.elements = env'.elements
  checked : env.checked = env'.checked
  unchecked : env.checked = true → L.Checked
  scope : ∀ Γ ∈ row, L.SightRel Γ env.scope env'.scope
  sees_elements : ∀ e ∈ env.elements, ∃ Γ ∈ row, elementSource e.2 ∈ Γ.sources

section EnvRel

variable {L} {data : String} {row : Option Ctx} {Γ Δ : Ctx} {env env' : Env}

/-- The rows of the element variables stay in sight of a row that sees more. -/
lemma EnvRel.within {s s' : Scope} (h : L.EnvRel data row env env') (le : ∀ Γ ∈ row, Γ ≤ Δ)
    (hs : L.ScopeRel Δ s s') :
    L.EnvRel data (some Δ) { env with scope := s } { env' with scope := s' } := by
  refine { h with scope := ?_, sees_elements := ?_ }
  · rintro _ ⟨⟩
    exact hs.sight
  · intro x hx
    obtain ⟨Γ, hΓ, hmem⟩ := h.sees_elements x hx
    exact ⟨Δ, rfl, (le Γ hΓ).sources hmem⟩

/-- The rows of an element variable are in sight of what is computed for each element. -/
lemma EnvRel.withElement (h : L.EnvRel data (some Γ) env env') (name source : String) :
    L.EnvRel data (some (Γ.inside (.rows [elementSource source])))
      { env with elements := (name, source) :: env.elements }
      { env' with elements := (name, source) :: env'.elements } := by
  have le := Γ.le_inside_rows [elementSource source]
  refine { h with elements := ?_, scope := ?_, sees_elements := ?_ }
  · exact congrArg (List.cons (name, source)) h.elements
  · rintro _ ⟨⟩
    exact (h.scope Γ rfl).mono le
  · refine List.forall_mem_cons.2 ⟨⟨_, rfl, List.mem_append_left _ List.mem_cons_self⟩, ?_⟩
    intro x hx
    obtain ⟨_, ⟨⟩, hmem⟩ := h.sees_elements x hx
    exact ⟨_, rfl, le.sources hmem⟩

lemma EnvRel.inStage (h : L.EnvRel data row env env') (stage : Option String) :
    L.EnvRel data row { env with stage } { env' with stage } :=
  { h with stage := rfl }

lemma EnvRel.inlined (h : L.EnvRel data row env env') :
    L.EnvRel data row { env with inline := true } { env' with inline := true } :=
  { h with }

end EnvRel

/-- Results that are both there and related, or the same error. -/
inductive ResultRel {α : Type} (A : α → α → Prop) : Result α → Result α → Prop where
  | ok {a a'} : A a a' → ResultRel A (.ok a) (.ok a')
  | error {e} : ResultRel A (.error e) (.error e)

end FragmentLogic

/-- Is the name its base with the number of a use? -/
def Numbered (base name : String) : Prop :=
  ∃ n, 0 < n ∧ name = s!"{base}_{n}"

/-- The same alias on a base. -/
def SameAlias (base label label' : String) : Prop :=
  label = label' ∧ Numbered base label

/-- A relation on computations that respects how they are built. -/
structure RenderLogic extends FragmentLogic where
  /-- The column of documents. -/
  data : String
  Run : ∀ {α : Type}, Option Ctx → (α → α → Prop) → Render α → Render α → Prop
  protected pure : ∀ {α : Type} {row A} {a a' : α}, A a a' → Run row A (pure a) (pure a')
  protected bind : ∀ {α β : Type} {row A B} {r r' : Render α} {k k' : α → Render β},
    Run row A r r' → (∀ a a', A a a' → Run row B (k a) (k' a')) → Run row B (r >>= k) (r' >>= k')
  /-- The errors in which related computations may end. -/
  Fails : Error → Prop
  fails : ∀ {e}, e.isOrdinary = true → Fails e
  fail : ∀ {α : Type} {row} {A : α → α → Prop} {e}, Fails e →
    Run row A (Render.ofResult (.error e)) (Render.ofResult (.error e))
  protected read : ∀ {row}, Run row (toFragmentLogic.EnvRel data row) read read
  literal : ∀ {Γ l}, Run (some Γ) (Rel Γ) (Render.literal l) (Render.literal l)
  newAlias : ∀ {row base}, Run row (SameAlias base) (Render.newAlias base) (Render.newAlias base)
  warn : ∀ {row d}, Run row Eq (Render.warn d) (Render.warn d)
  captured : ∀ {row A} {r r' : Render Fragment},
    Run row A r r' → Run row A (Render.captured r) (Render.captured r')
  /-- May subqueries be named? -/
  Hoists : Prop := True
  hoist : ∀ {row cte cte'}, Hoists → Run row Eq (Render.hoist cte) (Render.hoist cte')
  inlined : ∀ {α : Type} {row A} {r r' : Render α},
    Run row A r r' → Run row A (Render.inlined r) (Render.inlined r')
  within : ∀ {α : Type} {row A Δ s s'} {r r' : Render α}, (∀ Γ ∈ row, Γ ≤ Δ) →
    toFragmentLogic.ScopeRel Δ s s' → Run (some Δ) A r r' →
    Run row A (Render.within s r) (Render.within s' r')
  withElement : ∀ {α : Type} {Γ A} (name : String) {source} {r r' : Render α},
    Run (some (Γ.inside (.rows [elementSource source]))) A r r' →
    Run (some Γ) A (Render.withElement name source r) (Render.withElement name source r')
  inStage : ∀ {α : Type} {row A stage} {r r' : Render α},
    Run row A r r' → Run row A (Render.inStage stage r) (Render.inStage stage r')
  /-- What every run of the first side yields is known of its value. -/
  yields : ∀ {α : Type} {row A} {P : α → Prop} {r r' : Render α}, Run row A r r' →
    (∀ env e a e', env.dataColumn = data → (r.run env).run e = .ok a e' → P a) →
    Run row (fun a a' => A a a' ∧ P a) r r'

namespace RenderLogic

variable {L : RenderLogic} {row : Option Ctx} {α β : Type}

/-- A computation keeps the relation if it is related to itself. -/
abbrev Keeps (L : RenderLogic) (row : Option Ctx) (A : α → α → Prop) (r : Render α) : Prop :=
  L.Run row A r r

/-- A weaker relation on results. -/
lemma Run.imp {A B : α → α → Prop} {r r' : Render α} (h : L.Run row A r r')
    (hAB : ∀ a a', A a a' → B a a') : L.Run row B r r' := by
  rw [← bind_pure r, ← bind_pure r']
  exact L.bind h fun a a' ha => L.pure (hAB a a' ha)

/-- What follows a new alias may use it, and knows its base. -/
lemma run_numbered {B : β → β → Prop} {base : String} {k k' : String → Render β}
    (h : ∀ label, Numbered base label → L.Run row B (k label) (k' label)) :
    L.Run row B (Render.newAlias base >>= k) (Render.newAlias base >>= k') := by
  refine L.bind L.newAlias ?_
  rintro label _ ⟨rfl, hlabel⟩
  exact h label hlabel

/-- What follows a new alias may use it. -/
lemma run_alias {B : β → β → Prop} {base : String} {k k' : String → Render β}
    (h : ∀ label, L.Run row B (k label) (k' label)) :
    L.Run row B (Render.newAlias base >>= k) (Render.newAlias base >>= k') :=
  run_numbered fun label _ => h label

/-- What follows a warning does not depend on it. -/
lemma run_warn {B : β → β → Prop} {d : Deviation} {r r' : Render β} (h : L.Run row B r r') :
    L.Run row B (do Render.warn d; r) (do Render.warn d; r') :=
  L.bind L.warn fun _ _ _ => h

/-- The error of a result that has only ordinary ones. -/
lemma fails_of {x : Result α} [hx : x.Ordinary] {e : Error} (h : x = .error e) : L.Fails e :=
  L.fails (hx.satisfies.error h)

/-- A computation of the same value on both sides. -/
lemma run_result {x : Result α} [x.Ordinary] :
    L.Run row (fun a b => a = b ∧ x = .ok a) (liftM x) (liftM x) := by
  cases hx : x with
  | ok a => exact L.pure ⟨rfl, rfl⟩
  | error e => exact L.fail (fails_of hx)

/-- A refusal. -/
lemma run_fault {A : α → α → Prop} {f : Fault} (hf : L.Fails (.structural f)) :
    L.Run row A (liftM (fault f : Result α)) (liftM (fault f : Result α)) :=
  L.fail hf

/-- A feature without a counterpart. -/
lemma run_unsupported {A : α → α → Prop} (l : Limitation) :
    L.Run row A (liftM (unsupported l : Result α)) (liftM (unsupported l : Result α)) :=
  L.fail (L.fails rfl)

/-- One computation for each of related elements. -/
lemma run_mapM {R : α → α → Prop} {A : β → β → Prop} {xs ys : List α} {f g : α → Render β}
    (h : List.Forall₂ R xs ys) (hfg : ∀ x y, R x y → L.Run row A (f x) (g y)) :
    L.Run row (List.Forall₂ A) (xs.mapM f) (ys.mapM g) := by
  rw [← List.mapM'_eq_mapM, ← List.mapM'_eq_mapM]
  induction h with
  | nil => exact L.pure .nil
  | cons hxy _ ih =>
    exact L.bind (hfg _ _ hxy) fun b b' hb => L.bind ih fun bs bs' hbs => L.pure (.cons hb hbs)

/-- One computation for each element of a list. -/
lemma run_mapM_self {A : β → β → Prop} {xs : List α} {f g : α → Render β}
    (hfg : ∀ x ∈ xs, L.Run row A (f x) (g x)) :
    L.Run row (List.Forall₂ A) (xs.mapM f) (xs.mapM g) := by
  refine run_mapM (R := fun x y => x = y ∧ x ∈ xs) (List.forall₂_same.2 fun x hx => ⟨rfl, hx⟩) ?_
  rintro x _ ⟨rfl, hx⟩
  exact hfg x hx

/-- A computation for an element that may be absent. -/
lemma run_optionMapM {A : β → β → Prop} {o : Option α} {f g : α → Render β}
    (hfg : ∀ x ∈ o, L.Run row A (f x) (g x)) :
    L.Run row (Option.Rel A) (o.mapM f) (o.mapM g) := by
  cases o with
  | none => exact L.pure .none
  | some x => exact L.bind (hfg x rfl) fun b b' hb => L.pure (.some hb)

/-- A choice that is the same on both sides. -/
lemma run_ite {A : α → α → Prop} {c : Prop} [Decidable c] {r r' s s' : Render α}
    (h : c → L.Run row A r r') (h' : ¬c → L.Run row A s s') :
    L.Run row A (if c then r else s) (if c then r' else s') := by
  split
  · next hc => exact h hc
  · next hc => exact h' hc

/-- A warning under a condition that is the same on both sides. -/
lemma run_warn_if {B : β → β → Prop} {c : Prop} [Decidable c] {d : Deviation}
    {k k' : PUnit → Render β} (h : L.Run row B (k ⟨⟩) (k' ⟨⟩)) :
    L.Run row B (if c then Render.warn d >>= k else k ⟨⟩)
      (if c then Render.warn d >>= k' else k' ⟨⟩) :=
  run_ite (fun _ => L.bind L.warn fun _ _ _ => h) (fun _ => h)

end RenderLogic

end PipelineSql
