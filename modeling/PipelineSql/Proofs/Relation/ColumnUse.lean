import PipelineSql.Proofs.Relation.Fragment

/-!
# Uses of columns

The qualified columns of a fragment, each with what is in sight where it stands, and the brackets of
a fragment with what they enclose. A fragment is `Scoped` if every column is one that a source in
sight offers, and if every bracket lists only names that its body introduces.
-/

namespace PipelineSql

/-- A column read through the alias of its source, with what is in sight there. -/
structure ColumnUse where
  ctx : Ctx
  source : String
  column : String

/-- Is the column one that a source in sight offers? -/
def ColumnUse.Offered (u : ColumnUse) : Prop :=
  u.ctx.Sees u.source u.column

mutual

/-- The qualified columns of a piece. -/
def Piece.uses (Γ : Ctx) : Piece → List ColumnUse
  | .token (.column source name) => [⟨Γ, source, name⟩]
  | .token _ => []
  | .group b body => Piece.allUses (Γ.inside b) body

/-- The qualified columns of a sequence of pieces. -/
def Piece.allUses (Γ : Ctx) : List Piece → List ColumnUse
  | [] => []
  | p :: ps => p.uses Γ ++ Piece.allUses Γ ps

end

mutual

/-- The brackets of a piece at any depth, with their bodies. -/
def Piece.brackets : Piece → List (Bracket × Fragment)
  | .token _ => []
  | .group b body => (b, body) :: Piece.allBrackets body

/-- The brackets of a sequence of pieces. -/
def Piece.allBrackets : List Piece → List (Bracket × Fragment)
  | [] => []
  | p :: ps => p.brackets ++ Piece.allBrackets ps

end

namespace Piece

lemma allUses_append (Γ : Ctx) (ps qs : List Piece) :
    allUses Γ (ps ++ qs) = allUses Γ ps ++ allUses Γ qs := by
  induction ps with
  | nil => rfl
  | cons p ps ih => simp [allUses, ih]

lemma allBrackets_append (ps qs : List Piece) :
    allBrackets (ps ++ qs) = allBrackets ps ++ allBrackets qs := by
  induction ps with
  | nil => rfl
  | cons p ps ih => simp [allBrackets, ih]

mutual

/-- Columns stay offered when more is in sight. -/
lemma offered_mono {Γ Δ : Ctx} (le : Γ ≤ Δ) : ∀ p : Piece,
    (∀ u ∈ p.uses Γ, u.Offered) → ∀ u ∈ p.uses Δ, u.Offered
  | .token t, h => by
    cases t with
    | column source name =>
      simp only [uses, List.mem_singleton, forall_eq] at h ⊢
      exact h.mono le
    | _ => simp [uses]
  | .group b body, h => by
    simp only [uses] at h ⊢
    exact allOffered_mono (le.inside b) body h

lemma allOffered_mono {Γ Δ : Ctx} (le : Γ ≤ Δ) : ∀ ps : List Piece,
    (∀ u ∈ allUses Γ ps, u.Offered) → ∀ u ∈ allUses Δ ps, u.Offered
  | [], _ => by simp [allUses]
  | p :: ps, h => by
    simp only [allUses, List.forall_mem_append] at h ⊢
    exact ⟨offered_mono le p h.1, allOffered_mono le ps h.2⟩

end

end Piece

namespace Fragment

/-- The qualified columns of a fragment. -/
def uses (f : Fragment) (Γ : Ctx) : List ColumnUse :=
  Piece.allUses Γ f

/-- The brackets of a fragment at any depth, with their bodies. -/
def brackets (f : Fragment) : List (Bracket × Fragment) :=
  Piece.allBrackets f

/-- Every column is one of a source in sight, and every bracket lists what its body introduces. -/
structure Scoped (Γ : Ctx) (f : Fragment) : Prop where
  offered : ∀ u ∈ f.uses Γ, u.Offered
  declared : ∀ b ∈ f.brackets, b.1.Declared b.2

namespace Scoped

variable {Γ Δ : Ctx} {f g : Fragment}

protected lemma mono (le : Γ ≤ Δ) (h : f.Scoped Γ) : f.Scoped Δ :=
  ⟨Piece.allOffered_mono le f h.offered, h.declared⟩

lemma nil : Scoped Γ [] :=
  ⟨nofun, nofun⟩

protected lemma append (hf : f.Scoped Γ) (hg : g.Scoped Γ) : Scoped Γ (f ++ g) where
  offered := by
    simpa only [uses, Piece.allUses_append, List.forall_mem_append] using
      ⟨hf.offered, hg.offered⟩
  declared := by
    simpa only [brackets, Piece.allBrackets_append, List.forall_mem_append] using
      ⟨hf.declared, hg.declared⟩

lemma column {source name : String} (h : Γ.Sees source name) :
    Scoped Γ [.token (.column source name)] where
  offered := by
    simpa [uses, Piece.allUses, Piece.uses, ColumnUse.Offered] using h
  declared := nofun

/-- Only a qualified column uses a source. -/
lemma token {t : Token} (h : ∀ source name, t ≠ .column source name) : Scoped Γ [.token t] where
  offered := by
    cases t with
    | column source name => exact absurd rfl (h source name)
    | _ => exact nofun
  declared := nofun

lemma group {b : Bracket} (hb : b.Declared f) (h : f.Scoped (Γ.inside b)) :
    Scoped Γ [.group b f] where
  offered := by
    simpa only [uses, Piece.allUses, Piece.uses, List.append_nil] using h.offered
  declared := by
    simpa only [brackets, Piece.allBrackets, Piece.brackets, List.append_nil,
      List.forall_mem_cons] using ⟨hb, h.declared⟩

end Scoped

end Fragment

end PipelineSql
