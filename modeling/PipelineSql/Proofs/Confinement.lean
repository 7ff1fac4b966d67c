import PipelineSql.Proofs.RowTexts
import PipelineSql.Proofs.Relation.Coupling

/-!
# Where bound values come from

What is rendered with its values in place binds nothing of its own. A slot in it is one of a text
that the row holds for something that the expression reads: a row holds the texts of computed fields
as they were rendered, with their values bound.

So text that is rendered in place over a row of which only texts with the given slots are visible
has only those slots (`RenderLogic.confined`).
-/

namespace PipelineSql

/-- The slots of a fragment in order. -/
def Fragment.slots (f : Fragment) : List Nat :=
  Token.slots f.tokens

/-- Are all slots among the given ones? -/
def Fragment.Confined (S : List Nat) (f : Fragment) : Prop :=
  ∀ slot ∈ f.slots, slot ∈ S

instance (S : List Nat) (f : Fragment) : Decidable (f.Confined S) :=
  inferInstanceAs (Decidable (∀ slot ∈ f.slots, slot ∈ S))

namespace Fragment

variable {S : List Nat} {f g : Fragment}

@[simp]
lemma slots_append (f g : Fragment) : (f ++ g).slots = f.slots ++ g.slots := by
  rw [slots, tokens_append, Token.slots_append]
  rfl

@[simp]
lemma slots_group (b : Bracket) (f : Fragment) : slots [.group b f] = f.slots := by
  rw [slots, tokens_group, Token.slots_append, Token.slots_append, b.slots_opening,
    b.slots_closing, List.nil_append, List.append_nil]
  rfl

lemma slots_token {t : Token} (h : t.slot? = none) : slots [.token t] = [] := by
  simp [slots, tokens, Piece.flatten, Piece.tokens, Token.slots, h]

@[simp]
lemma slots_text (s : String) : (text s).slots = [] :=
  slots_token rfl

@[simp]
lemma slots_string (s : String) : (string s).slots = [] :=
  slots_token rfl

@[simp]
lemma slots_column (source name : String) : (column source name).slots = [] :=
  slots_token rfl

@[simp]
lemma slots_null : null.slots = [] :=
  slots_token rfl

lemma Confined.of_slots_eq_nil (h : f.slots = []) : f.Confined S := by
  simp [Confined, h]

protected lemma Confined.append (h : f.Confined S) (h' : g.Confined S) : (f ++ g).Confined S := by
  rw [Confined, slots_append]
  exact List.forall_mem_append.2 ⟨h, h'⟩

end Fragment

/-! ## Text rendered in place -/

/-- Fragments are related if they are the same, and all their slots are given. -/
def FragmentLogic.confined (S : List Nat) (V : Reference → Prop) : FragmentLogic where
  Rel _ f g := f = g ∧ f.Confined S
  Stored _ := True
  Speaks d d' := d = d'
  Lists _ := True
  Checked := True
  Visible := V
  features h := .of_eq h
  mono _ h := h
  nil := ⟨rfl, nofun⟩
  append := by
    rintro _ _ _ _ _ ⟨rfl, h⟩ ⟨rfl, h'⟩
    exact ⟨rfl, h.append h'⟩
  plain h := ⟨rfl, .of_slots_eq_nil (Fragment.slots_token (Token.slot?_of_isPlain h))⟩
  text _ _ := ⟨rfl, .of_slots_eq_nil (Fragment.slots_token rfl)⟩
  said _ _ := ⟨rfl, .of_slots_eq_nil (Fragment.slots_token rfl)⟩
  column _ := ⟨rfl, .of_slots_eq_nil (Fragment.slots_token rfl)⟩
  table _ := ⟨rfl, .of_slots_eq_nil (Fragment.slots_token rfl)⟩
  group := by
    rintro _ b f _ _ _ _ ⟨rfl, h⟩
    refine ⟨rfl, ?_⟩
    rw [Fragment.Confined, Fragment.slots_group]
    exact h
  name := by
    rintro _ _ _ _ ⟨rfl, _⟩ _
    rfl

/-- Environments in which values are written in place, and rows that show the given slots alone. -/
structure Env.Confined (S : List Nat) (V : Reference → Prop) (data : String)
    (row : Option Ctx) (env env' : Env) : Prop where
  envRel : (FragmentLogic.confined S V).EnvRel data row env env'
  inline : env.inline = true
  inline' : env'.inline = true
  strict : env.strict = env'.strict

/-- A value is written in place, and so without a slot. -/
lemma Render.Alike.literal_confined {S : List Nat} {V : Reference → Prop} {data : String}
    {row : Option Ctx} {Γ : Ctx} {F : Error → Prop} (l : Literal) :
    Render.Alike (Env.Confined S V data row) F ((FragmentLogic.confined S V).Rel Γ)
      (Render.literal l) (Render.literal l) := by
  unfold Render.literal
  split
  · exact .pure ((FragmentLogic.confined S V).plain rfl)
  · exact .pure ((FragmentLogic.confined S V).plain rfl)
  · refine .bind ask fun env env' henv => ?_
    rw [if_pos henv.inline, if_pos henv.inline']
    exact .pure ((FragmentLogic.confined S V).plain (Token.isPlain_literal l))

/-- Runs that write values in place over rows that show the given slots, as a relation that respects
how computations are built. -/
def RenderLogic.confined (S : List Nat) (V : Reference → Prop) (data : String) :
    RenderLogic where
  toFragmentLogic := .confined S V
  data := data
  Run row := Render.Alike (Env.Confined S V data row) fun _ => True
  pure := .pure
  bind := .bind
  Fails _ := True
  fails _ := trivial
  fail h := .fail h
  read _ _ _ henv := .ok henv.envRel
  literal := .literal_confined _
  newAlias := .newAlias _
  warn := .warn trivial fun _ _ henv => ⟨henv.strict, henv.envRel.stage⟩
  captured := .adapt fun _ _ henv => henv
  hoist _ _ _ _ _ := .ok rfl
  inlined := .adapt fun _ _ henv =>
    { henv with envRel := henv.envRel.inlined, inline := rfl, inline' := rfl }
  within le hs := .adapt fun _ _ henv => { henv with envRel := henv.envRel.within le hs }
  withElement name := .adapt fun _ _ henv =>
    { henv with envRel := henv.envRel.withElement name _ }
  inStage := .adapt fun _ _ henv => { henv with envRel := henv.envRel.inStage _ }
  yields := .yields fun _ _ henv => henv.envRel.dataColumn

/-! ## Texts that are read -/

/-- The slots of all texts of the row that an expression may read. -/
def Expr.slotsRead (σ : Scope) (e : Expr) : List Nat :=
  e.references.flatMap fun x => (x.texts σ).flatMap Fragment.slots

/-- Every slot of an expression that is rendered in place is one of a text that it reads. -/
lemma Expr.yields_confined {env : Env} (hinline : env.inline = true) (e : Expr)
    (type : Option JsonType) :
    ((Reading.ofExpr e).value type).Yields env (Fragment.Confined (e.slotsRead env.scope)) := by
  let L := RenderLogic.confined (e.slotsRead env.scope) (· ∈ e.references) env.dataColumn
  have hextracts := FragmentLogic.extracts_all (L := L.toFragmentLogic)
    (rfl : Dialect.oracle26ai = .oracle26ai) rfl
  have hknown : L.Known e := fun n hn => ⟨fun x hx => List.mem_filterMap.2 ⟨n, hn, hx⟩,
    fun _ _ => trivial, hextracts _, fun _ _ => trivial⟩
  have htype : L.Extracts type := hextracts type
  have hrun := ((RenderLogic.reads_ofExpr e hknown).value env.sight type).imp
    (B := fun f _ => f.Confined (e.slotsRead env.scope)) fun _ _ h => h.2
  refine hrun.yields_self ⟨env.envRel_sight rfl (fun _ => trivial) ?_ fun _ => trivial, hinline,
    hinline, rfl⟩
  intro x hx f hf
  refine ⟨rfl, fun slot hslot => ?_⟩
  exact List.mem_flatMap.2 ⟨x, hx, List.mem_flatMap.2 ⟨f, hf, hslot⟩⟩

/-- Every slot of a text that is read is one of a text of the row. -/
lemma Expr.exists_text_of_slotsRead {σ : Scope} {e : Expr} {slot : Nat}
    (h : slot ∈ e.slotsRead σ) : ∃ f ∈ σ.texts, slot ∈ f.slots := by
  obtain ⟨x, _, hx⟩ := List.mem_flatMap.1 h
  obtain ⟨f, hf, hslot⟩ := List.mem_flatMap.1 hx
  obtain ⟨_, _, hrel⟩ := x.exists_rel_texts
    (L := .confined (σ.texts.flatMap Fragment.slots) fun _ => True) (fun _ => trivial)
    (fun _ f hf => ⟨rfl, fun slot hslot => List.mem_flatMap.2 ⟨f, hf, hslot⟩⟩) f hf
  exact List.mem_flatMap.1 (hrel.2 slot hslot)

end PipelineSql
