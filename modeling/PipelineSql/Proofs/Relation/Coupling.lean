import PipelineSql.Proofs.Relation.ColumnUse
import PipelineSql.Proofs.Relation.Faithful

/-!
# Values bound and values written

A compilation that binds its values and one that writes them in place run in step. The fragments of
the second are those of the first with every slot replaced by its value. The slots of the first are
below the number of values that it has emitted when it ends, and its references are to what is in
sight.
-/

namespace PipelineSql

/-- A placeholder replaced by the value behind its slot. -/
def Token.written (values : List Literal) : Token → Token
  | .bind slot => .literal (values.getD slot .null)
  | t => t

/-- The slot of a placeholder. -/
def Token.slot? : Token → Option Nat
  | .bind slot => some slot
  | _ => none

/-- The slots of a sequence of tokens in order. -/
def Token.slots (ts : List Token) : List Nat :=
  ts.filterMap Token.slot?

mutual

/-- A piece with every placeholder replaced by its value. -/
def Piece.written (values : List Literal) : Piece → Piece
  | .token t => .token (t.written values)
  | .group b body => .group b (Piece.allWritten values body)

/-- A sequence of pieces with every placeholder replaced by its value. -/
def Piece.allWritten (values : List Literal) : List Piece → List Piece
  | [] => []
  | p :: ps => p.written values :: Piece.allWritten values ps

end

/-- A fragment with every placeholder replaced by its value. -/
def Fragment.written (f : Fragment) (values : List Literal) : Fragment :=
  Piece.allWritten values f

namespace Token

variable {values : List Literal} {t : Token}

lemma written_eq_self (h : t.slot? = none) : t.written values = t := by
  cases t with
  | bind slot => simp [slot?] at h
  | _ => rfl

lemma slot?_of_isPlain (h : t.isPlain = true) : t.slot? = none := by
  cases t with
  | bind slot => simp [isPlain] at h
  | _ => rfl

/-- No value is written as a name or with a slot. -/
lemma slot?_literal (l : Literal) : (literal l).slot? = none := by
  cases l <;> rfl

lemma isName_literal (l : Literal) : (literal l).isName = false := by
  cases l <;> rfl

lemma isPlain_literal (l : Literal) : (literal l).isPlain = true := by
  cases l <;> rfl

/-- Only a name is written as a name. -/
lemma written_eq_iff (h : t.isName = true) {u : Token} : u.written values = t ↔ u = t := by
  cases u with
  | bind slot =>
    constructor
    · rintro rfl
      simp [written, isName_literal] at h
    · rintro rfl
      simp [isName] at h
  | _ => rfl

lemma slots_append (ts us : List Token) : slots (ts ++ us) = slots ts ++ slots us :=
  List.filterMap_append

/-- No slots are left once the values are written. -/
lemma slots_written (ts : List Token) : slots (ts.map (written values)) = [] := by
  rw [slots, List.filterMap_eq_nil_iff]
  rintro t ht
  obtain ⟨u, _, rfl⟩ := List.mem_map.1 ht
  cases u with
  | bind slot => exact slot?_literal _
  | _ => rfl

end Token

namespace Bracket

lemma written_opening (b : Bracket) (values : List Literal) :
    b.opening.map (Token.written values) = b.opening := by
  cases b <;> rfl

lemma written_closing (b : Bracket) (values : List Literal) :
    b.closing.map (Token.written values) = b.closing := by
  cases b <;> rfl

lemma slots_opening (b : Bracket) : Token.slots b.opening = [] := by
  cases b <;> rfl

lemma slots_closing (b : Bracket) : Token.slots b.closing = [] := by
  cases b <;> rfl

end Bracket

namespace Piece

lemma flatten_append (ps qs : List Piece) : flatten (ps ++ qs) = flatten ps ++ flatten qs := by
  induction ps with
  | nil => rfl
  | cons p ps ih => simp [flatten, ih]

lemma allWritten_append (values : List Literal) (ps qs : List Piece) :
    allWritten values (ps ++ qs) = allWritten values ps ++ allWritten values qs := by
  induction ps with
  | nil => rfl
  | cons p ps ih => simp [allWritten, ih]

mutual

lemma tokens_written (values : List Literal) : ∀ p : Piece,
    (p.written values).tokens = p.tokens.map (Token.written values)
  | .token t => by simp [written, tokens]
  | .group b body => by
    simp only [written, tokens, List.map_append, b.written_opening, b.written_closing,
      flatten_allWritten values body]

lemma flatten_allWritten (values : List Literal) : ∀ ps : List Piece,
    flatten (allWritten values ps) = (flatten ps).map (Token.written values)
  | [] => rfl
  | p :: ps => by
    simp only [allWritten, flatten, List.map_append, tokens_written values p,
      flatten_allWritten values ps]

end

end Piece

namespace Fragment

lemma tokens_append (f g : Fragment) : (f ++ g).tokens = f.tokens ++ g.tokens :=
  Piece.flatten_append f g

/-- The tokens of a fragment whose values are written. -/
lemma tokens_written (f : Fragment) (values : List Literal) :
    (f.written values).tokens = f.tokens.map (Token.written values) :=
  Piece.flatten_allWritten values f

lemma tokens_group (b : Bracket) (f : Fragment) :
    Fragment.tokens [.group b f] = b.opening ++ f.tokens ++ b.closing := by
  simp [tokens, Piece.flatten, Piece.tokens]

end Fragment

/-- A fragment with values bound, and the one with the same values written. -/
structure Coupled (values : List Literal) (Γ : Ctx) (f g : Fragment) : Prop where
  inScope : f.Scoped Γ
  worded : f.Spells Wording
  slots : ∀ slot ∈ Token.slots f.tokens, slot < values.length
  written : g = f.written values

namespace Coupled

variable {values : List Literal} {Γ Δ : Ctx} {f f' g g' : Fragment} {t : Token}

protected lemma mono (le : Γ ≤ Δ) (h : Coupled values Γ f g) : Coupled values Δ f g :=
  { h with inScope := h.inScope.mono le }

lemma nil : Coupled values Γ [] [] :=
  ⟨.nil, Fragment.spells_nil, nofun, rfl⟩

protected lemma append (h : Coupled values Γ f g) (h' : Coupled values Γ f' g') :
    Coupled values Γ (f ++ f') (g ++ g') where
  inScope := h.inScope.append h'.inScope
  worded := h.worded.append h'.worded
  slots := by
    rw [Fragment.tokens_append, Token.slots_append]
    exact List.forall_mem_append.2 ⟨h.slots, h'.slots⟩
  written := by
    rw [h.written, h'.written]
    exact (Piece.allWritten_append values f f').symm

/-- A token without a slot is the same on both sides. -/
lemma token (h : t.slot? = none) (hs : Fragment.Scoped Γ [.token t])
    (hw : Fragment.Spells Wording [.token t]) : Coupled values Γ [.token t] [.token t] where
  inScope := hs
  worded := hw
  slots := by simp [Fragment.tokens, Piece.flatten, Piece.tokens, Token.slots, h]
  written := by
    simp only [Fragment.written, Piece.allWritten, Piece.written, Token.written_eq_self h]

lemma plain (h : t.isPlain = true) : Coupled values Γ [.token t] [.token t] := by
  refine token (Token.slot?_of_isPlain h) (.token fun source name ht => ?_)
    (Fragment.spells_token fun s ht => ?_)
  all_goals
    rw [ht] at h
    exact absurd h Bool.false_ne_true

/-- A value is bound on one side and written on the other. -/
lemma bound {slot : Nat} {l : Literal} (h : values[slot]? = some l) :
    Coupled values Γ [.token (.bind slot)] [.token (.literal l)] where
  inScope := .token nofun
  worded := Fragment.spells_token nofun
  slots := by
    obtain ⟨hlt, _⟩ := List.getElem?_eq_some_iff.1 h
    simpa [Fragment.tokens, Piece.flatten, Piece.tokens, Token.slots, Token.slot?] using hlt
  written := by
    simp [Fragment.written, Piece.allWritten, Piece.written, Token.written, h]

lemma group {b : Bracket} (hb : b.Declared f) (h : Coupled values (Γ.inside b) f g) :
    Coupled values Γ [.group b f] [.group b g] where
  inScope := .group hb h.inScope
  worded := h.worded.group
  slots := by
    rw [Fragment.tokens_group, Token.slots_append, Token.slots_append, b.slots_opening,
      b.slots_closing, List.nil_append, List.append_nil]
    exact h.slots
  written := by
    rw [h.written]
    rfl

/-- Both sides are the same name, or neither is a name. -/
lemma name (h : Coupled values Γ f g) (ht : t.isName = true) :
    f = [.token t] ↔ g = [.token t] := by
  rw [h.written]
  constructor
  · rintro rfl
    simp only [Fragment.written, Piece.allWritten, Piece.written, (Token.written_eq_iff ht).2 rfl]
  · intro hg
    match f, hg with
    | [.token u], hg =>
      simp only [Fragment.written, Piece.allWritten, Piece.written, List.cons.injEq,
        Piece.token.injEq, and_true] at hg
      rw [(Token.written_eq_iff ht).1 hg]

end Coupled

/-- Coupled fragments, as a relation that respects how fragments are built. -/
def FragmentLogic.coupled (values : List Literal) : FragmentLogic where
  Rel := Coupled values
  Stored _ := True
  Speaks d d' := d = d'
  Lists _ := True
  features h := .of_eq h
  mono := Coupled.mono
  nil := Coupled.nil
  append := Coupled.append
  plain := Coupled.plain
  text _ := .token rfl (.token nofun) (Fragment.spells_text inferInstance)
  said _ h := .token rfl (.token nofun) (Fragment.spells_text h.wording)
  column h := .token rfl (.column h) (Fragment.spells_token nofun)
  table _ := .token rfl (.token nofun) (Fragment.spells_token nofun)
  group _ hb _ := Coupled.group hb
  name := Coupled.name

lemma FragmentLogic.naming_coupled (values : List Literal) : (coupled values).Naming :=
  Coupled.group

lemma FragmentLogic.windowing_coupled (values : List Literal) : (coupled values).Windowing :=
  fun h => .token rfl (.token nofun) (Fragment.spells_text (wording_of_mem_windowWords h))

/-! ## Runs in step -/

/-- Emissions that differ in the values alone, of which one has none. -/
structure Emission.InStep (e e' : Emission) : Prop where
  aliases : e'.aliases = e.aliases
  warnings : e'.warnings = e.warnings
  capability : e'.capability = e.capability
  values : e'.values = []

/-- Outcomes that are both results and related, or the same error. -/
inductive Outcome {α : Type} (A : α → α → Prop) :
    EStateM.Result Error Emission α → EStateM.Result Error Emission α → Prop where
  | ok {a a' e e'} : A a a' → e.InStep e' → Outcome A (.ok a e) (.ok a' e')
  | error {x e e'} : e.InStep e' → Outcome A (.error x e) (.error x e')

/-- Environments for two runs in step: the second writes its values. -/
structure Env.Coupled (values : List Literal) (data : String) (row : Option Ctx) (env env' : Env) :
    Prop where
  envRel : (FragmentLogic.coupled values).EnvRel data row env env'
  strict : env'.strict = env.strict
  inline : env'.inline = true

/-- The runs end in related outcomes, if all that the first emits is among the given values. -/
def Render.InStep {α : Type} (values : List Literal) (data : String) (row : Option Ctx)
    (A : α → α → Prop) (r r' : Render α) : Prop :=
  ∀ env env' e e', env.Coupled values data row env' → Emission.InStep e e' →
    (Emission.final ((r.run env).run e)).values <+: values →
    Outcome A ((r.run env).run e) ((r'.run env').run e')

namespace Render.InStep

variable {α β : Type} {values : List Literal} {data : String} {row : Option Ctx} {Γ Δ : Ctx}

protected lemma pure {A : α → α → Prop} {a a' : α} (h : A a a') :
    InStep values data row A (pure a) (pure a') :=
  fun _ _ _ _ _ he _ => .ok h he

/-- What the first computation emits is among what both emit. -/
lemma final_le_bind (r : Render α) (k : α → Render β) (env : Env) (e : Emission) :
    Emission.final ((r.run env).run e) ≤ Emission.final (((r >>= k).run env).run e) := by
  change _ ≤ Emission.final ((r.run env >>= fun a => (k a).run env).run e)
  simp only [EStateM.run, bind, EStateM.bind]
  cases r.run env e with
  | ok a e' => exact (k a).grows env e'
  | error x e' => exact Emission.le_refl _

protected lemma bind {A : α → α → Prop} {B : β → β → Prop} {r r' : Render α}
    {k k' : α → Render β} (hr : InStep values data row A r r')
    (hk : ∀ a a', A a a' → InStep values data row B (k a) (k' a')) :
    InStep values data row B (r >>= k) (r' >>= k') := by
  intro env env' e e' henv he hv
  have hfirst := hr env env' e e' henv he ((final_le_bind r k env e).1.trans hv)
  change Outcome B ((r.run env >>= fun a => (k a).run env).run e)
    ((r'.run env' >>= fun a => (k' a).run env').run e')
  change (Emission.final ((r.run env >>= fun a => (k a).run env).run e)).values <+: values at hv
  simp only [EStateM.run, bind, EStateM.bind] at hfirst hv ⊢
  generalize r.run env e = x, r'.run env' e' = x' at hfirst hv ⊢
  cases hfirst with
  | ok ha he => exact hk _ _ ha env env' _ _ henv he hv
  | error he => exact .error he

/-- A computation in another environment. -/
lemma adapt {A : α → α → Prop} {r r' : Render α} {row' : Option Ctx}
    {change change' : Command α → Command α} {f f' : Env → Env}
    (h : ∀ env env', env.Coupled values data row env' →
      (f env).Coupled values data row' (f' env'))
    (hr : InStep values data row' A r r') :
    InStep values data row A (Render.adapt change f r) (Render.adapt change' f' r') :=
  fun env env' e e' henv he hv => hr (f env) (f' env') e e' (h env env' henv) he hv

/-- The environments themselves, once they are read. -/
lemma ask : InStep values data row (Env.Coupled values data row) read read :=
  fun _ _ _ _ henv he _ => .ok henv he

lemma fail {A : α → α → Prop} {x : Error} :
    InStep values data row A (ofResult (.error x)) (ofResult (.error x)) :=
  fun _ _ _ _ _ he _ => .error he

/-- Both runs hand out the same aliases. -/
lemma newAlias (base : String) :
    InStep values data row (SameAlias base) (Render.newAlias base) (Render.newAlias base) := by
  intro env env' e e' henv he hv
  refine .ok ⟨?_, _, Nat.succ_pos _, rfl⟩ { he with aliases := ?_ }
  · rw [he.aliases]
  · rw [Emission.addAlias, Emission.addAlias, he.aliases]

lemma record (w : Warning) : InStep values data row Eq (Render.record w) (Render.record w) := by
  intro env env' e e' _ he _
  refine .ok rfl { he with warnings := ?_, capability := ?_ }
  · rw [Emission.addWarning, Emission.addWarning, he.warnings]
  · rw [Emission.addWarning, Emission.addWarning, he.capability]

/-- Both runs add the same warning, or refuse it. -/
lemma warn (d : Deviation) : InStep values data row Eq (Render.warn d) (Render.warn d) := by
  unfold Render.warn
  refine .bind ask fun env env' henv => ?_
  rw [henv.strict, henv.envRel.stage]
  split
  · exact .bind (A := Eq) fail fun _ _ _ => record _
  · exact record _

/-- The value behind the slot that is handed out is the one that is emitted. -/
lemma slot_literal (l : Literal) :
    InStep values data row (Coupled values Γ) (Render.slot l)
      (pure (Token.literal l : Fragment)) := by
  intro env env' e e' henv he hv
  change e.values ++ [l] <+: values at hv
  have hslot := List.prefix_iff_getElem?.1 hv e.values.length (by simp)
  rw [List.getElem_append_right (Nat.le_refl _)] at hslot
  exact .ok (.bound (by simpa using hslot)) { he with }

/-- A value that is bound on one side is written on the other. -/
lemma literal (l : Literal) :
    InStep values data (some Γ) (Coupled values Γ) (Render.literal l) (Render.literal l) := by
  have hwritten : Coupled values Γ (Token.literal l) (Token.literal l) :=
    .plain (Token.isPlain_literal l)
  unfold Render.literal
  split
  · exact .pure hwritten
  · exact .pure hwritten
  · refine .bind ask fun env env' henv => ?_
    rw [henv.inline, if_pos rfl]
    split
    · exact .pure hwritten
    · exact slot_literal l

/-- What every run of the first computation yields is known of its value. -/
lemma yields {A : α → α → Prop} {P : α → Prop} {r r' : Render α}
    (h : InStep values data row A r r')
    (hP : ∀ env e a e', Env.dataColumn env = data → (r.run env).run e = .ok a e' → P a) :
    InStep values data row (fun a a' => A a a' ∧ P a) r r' := by
  intro env env' e e' henv he hv
  have hrun := h env env' e e' henv he hv
  have hyields := hP env e
  generalize (r.run env).run e = x, (r'.run env').run e' = x' at hrun hyields
  cases hrun with
  | ok ha he => exact .ok ⟨ha, hyields _ _ henv.envRel.dataColumn rfl⟩ he
  | error he => exact .error he

lemma within {A : α → α → Prop} {s s' : Scope} {r r' : Render α} (le : ∀ Γ ∈ row, Γ ≤ Δ)
    (hs : (FragmentLogic.coupled values).ScopeRel Δ s s') (h : InStep values data (some Δ) A r r') :
    InStep values data row A (Render.within s r) (Render.within s' r') :=
  adapt (fun _ _ henv => { henv with envRel := henv.envRel.within le hs }) h

lemma withElement {A : α → α → Prop} (name : String) {source : String} {r r' : Render α}
    (h : InStep values data (some (Γ.inside (.rows [elementSource source]))) A r r') :
    InStep values data (some Γ) A (Render.withElement name source r)
      (Render.withElement name source r') :=
  adapt (fun _ _ henv => { henv with envRel := henv.envRel.withElement name source }) h

end Render.InStep

/-- Runs in step, as a relation that respects how computations are built. -/
def RenderLogic.inStep (values : List Literal) (data : String) : RenderLogic where
  toFragmentLogic := .coupled values
  data := data
  Run := Render.InStep values data
  pure := .pure
  bind := .bind
  Fails _ := True
  fails _ := trivial
  fail _ := .fail
  read _ _ _ _ henv he _ := .ok henv.envRel he
  literal := .literal _
  newAlias := .newAlias _
  warn := .warn _
  captured := .adapt fun _ _ henv => henv
  hoist _ _ _ _ _ _ he _ := .ok rfl he
  inlined := .adapt fun _ _ henv => { henv with envRel := henv.envRel.inlined, inline := rfl }
  within := .within
  withElement := .withElement
  inStage := .adapt fun _ _ henv => { henv with envRel := henv.envRel.inStage _ }
  yields := .yields

/-- A compilation and the one that writes its values end alike. -/
lemma outcome_compilation (p : Pipeline) (t : Target) (o : Options) :
    Outcome (fun s s' => ∀ d, Coupled (Emission.final (p.compilation t o)).values {} (s.fragment d)
      (s'.fragment d)) (p.compilation t o) (p.compilation t { o with inlineBinds := true }) := by
  simp only [Pipeline.compilation_eq_run]
  let L := RenderLogic.inStep (Emission.final (((p.statement t).run (.of t o)).run {})).values
    t.dataColumn
  have hextracts := FragmentLogic.extracts_all (L := L.toFragmentLogic)
    (rfl : Dialect.oracle26ai = .oracle26ai) rfl
  refine RenderLogic.run_layout (L := L) p rfl (fun _ => trivial) (fun _ => trivial)
    (fun _ => trivial) (fun _ _ _ _ _ _ => hextracts _) (FragmentLogic.naming_coupled _)
    (FragmentLogic.windowing_coupled _) trivial (fun _ => trivial) _ _ _ _ ⟨?_, rfl, rfl⟩
    ⟨rfl, rfl, rfl, rfl⟩ ?_
  · exact ⟨rfl, rfl, rfl, rfl, rfl, rfl, rfl, nofun, nofun, nofun⟩
  · exact List.prefix_rfl

/-- The statement of a compilation is in scope, and its slots are below the number of values. -/
lemma coupled_compilation {p : Pipeline} {t : Target} {o : Options} {s : Statement} {e : Emission}
    (h : p.compilation t o = .ok s e) (d : Dialect) :
    ∃ f, Coupled e.values {} (s.fragment d) f := by
  have hout := outcome_compilation p t o
  rw [h] at hout
  generalize p.compilation t { o with inlineBinds := true } = x at hout
  cases hout with
  | ok hs _ => exact ⟨_, hs d⟩

end PipelineSql
