import Mathlib.Data.List.Chain
import PipelineSql.Proofs.RowTexts

/-!
# Texts without windows

A window function is a call with an `OVER` clause behind it. It must not stand in the arguments or
in the clause of another one, unless a finished query is around it. So two things are asked of a
text: is there no window function in it (`Fragment.Windowless`), and is none within another
(`Fragment.Flat`)?

No expression is rendered with a window function of its own. Those in its text are in the texts of
the row that it reads.
-/

namespace PipelineSql

/-- Does the token open the clause of a window? -/
def Token.opensWindow : Token → Bool
  | .text s => windowWords.contains s
  | _ => false

mutual

/-- Is there a window function in the piece, outside all finished queries? -/
def Piece.hasWindow : Piece → Bool
  | .token t => t.opensWindow
  | .group b body => b.selected?.isNone && Piece.anyWindow body

/-- Is there a window function in one of the pieces, outside all finished queries? -/
def Piece.anyWindow : List Piece → Bool
  | [] => false
  | p :: ps => p.hasWindow || Piece.anyWindow ps

end

/-- Does the piece open the clause of a window, which is the next piece? -/
def Piece.opensWindow : Piece → Bool
  | .token t => t.opensWindow
  | .group .. => false

/-- If one of two neighbours opens the clause of a window, the other, which is the clause or holds
the arguments, has no window function in it. -/
def Piece.Clear (p q : Piece) : Prop :=
  (p.opensWindow = true → q.hasWindow = false) ∧ (q.opensWindow = true → p.hasWindow = false)

instance : DecidableRel Piece.Clear :=
  fun p q => inferInstanceAs (Decidable
    ((p.opensWindow = true → q.hasWindow = false) ∧ (q.opensWindow = true → p.hasWindow = false)))

mutual

/-- Is no window function in the body of the piece within another? -/
def Piece.isFlat : Piece → Bool
  | .token _ => true
  | .group b body => b.selected?.isSome || decide (body.IsChain Piece.Clear) && Piece.areFlat body

/-- Is no window function in the body of one of the pieces within another? -/
def Piece.areFlat : List Piece → Bool
  | [] => true
  | p :: ps => p.isFlat && Piece.areFlat ps

end

namespace Fragment

/-- No window function stands in the text, outside all finished queries. -/
def Windowless (f : Fragment) : Prop :=
  Piece.anyWindow f = false

instance : DecidablePred Windowless :=
  fun f => inferInstanceAs (Decidable (Piece.anyWindow f = false))

/-- No window function stands in the arguments or in the clause of another. -/
def Flat (f : Fragment) : Prop :=
  f.IsChain Piece.Clear ∧ Piece.areFlat f = true

instance : DecidablePred Flat :=
  fun f => inferInstanceAs (Decidable (f.IsChain Piece.Clear ∧ Piece.areFlat f = true))

variable {f g : Fragment}

/-! ## Windowless texts -/

lemma windowless_iff : f.Windowless ↔ ∀ p ∈ f, p.hasWindow = false := by
  rw [Windowless]
  induction f with
  | nil => simp [Piece.anyWindow]
  | cons p f ih => rw [Piece.anyWindow, Bool.or_eq_false_iff, ih, List.forall_mem_cons]

@[simp]
lemma windowless_nil : Windowless [] :=
  rfl

@[simp]
lemma windowless_cons {p : Piece} : Windowless (p :: f) ↔ p.hasWindow = false ∧ f.Windowless := by
  rw [windowless_iff, windowless_iff, List.forall_mem_cons]

@[simp]
lemma windowless_append : (f ++ g).Windowless ↔ f.Windowless ∧ g.Windowless := by
  rw [windowless_iff, windowless_iff, windowless_iff, List.forall_mem_append]

@[simp]
lemma windowless_paren : (paren f).Windowless ↔ f.Windowless := by
  rw [paren, windowless_cons, Piece.hasWindow]
  exact and_iff_left windowless_nil

lemma windowless_token {t : Token} : Windowless [.token t] ↔ t.opensWindow = false := by
  rw [windowless_cons, Piece.hasWindow]
  exact and_iff_left windowless_nil

end Fragment

/-- The fixed texts of statements open no window. -/
lemma Common.opensWindow_eq_false {s : String} (h : Common s) :
    (Token.text s).opensWindow = false := by
  cases h <;> rfl

lemma Dialect.Says.opensWindow_eq_false {d : Dialect} {s : String} (h : d.Says s) :
    (Token.text s).opensWindow = false := by
  cases h with
  | common hs => exact hs.opensWindow_eq_false
  | _ => rfl

namespace Fragment

variable {f g : Fragment}

@[simp]
lemma windowless_text (s : String) [h : Common s] : (text s).Windowless :=
  windowless_token.2 h.opensWindow_eq_false

@[simp]
lemma windowless_string (s : String) : (string s).Windowless :=
  rfl

lemma windowless_joined (separator : String) [Common separator] {fs : List Fragment} :
    (joined separator fs).Windowless ↔ ∀ f ∈ fs, f.Windowless := by
  induction fs with
  | nil => simp [joined]
  | cons f fs ih =>
    cases fs with
    | nil => simp [joined]
    | cons g gs =>
      rw [joined, windowless_append, windowless_append, ih, List.forall_mem_cons (a := f),
        and_iff_left (windowless_text separator)]

@[simp]
lemma windowless_commas {fs : List Fragment} :
    (commas fs).Windowless ↔ ∀ f ∈ fs, f.Windowless :=
  windowless_joined _

@[simp]
lemma windowless_call {name : String} [Common name] {args : List Fragment} :
    (call name args).Windowless ↔ ∀ f ∈ args, f.Windowless := by
  rw [call, windowless_append, windowless_paren, windowless_commas,
    and_iff_right (windowless_text name)]

lemma not_windowless_over : ¬ (text " OVER ").Windowless := by
  decide

end Fragment

/-! ## Flat texts -/

open Fragment

namespace Piece

variable {p q : Piece}

lemma hasWindow_of_opensWindow (h : p.opensWindow = true) : p.hasWindow = true := by
  cases p with
  | token t => exact h
  | group b body => cases h

lemma clear_of_hasWindow_eq_false (hp : p.hasWindow = false) (hq : q.hasWindow = false) :
    p.Clear q :=
  ⟨fun _ => hq, fun _ => hp⟩

lemma isChain_clear {f : Fragment} (h : f.Windowless) : f.IsChain Clear := by
  induction f with
  | nil => exact .nil
  | cons p f ih =>
    obtain ⟨hp, hf⟩ := windowless_cons.1 h
    refine (ih hf).cons fun q hq => clear_of_hasWindow_eq_false hp ?_
    exact windowless_iff.1 hf q (List.mem_of_head? hq)

mutual

lemma isFlat_of_hasWindow_eq_false : ∀ {p : Piece}, p.hasWindow = false → p.isFlat = true
  | .token _, _ => rfl
  | .group b body, h => by
    rw [hasWindow, Bool.and_eq_false_iff] at h
    rw [isFlat, Bool.or_eq_true_iff, Bool.and_eq_true_iff]
    rcases h with h | h
    · exact .inl (by simpa using h)
    · exact .inr ⟨decide_eq_true (isChain_clear h), areFlat_of_windowless h⟩

lemma areFlat_of_windowless : ∀ {f : Fragment}, f.Windowless → areFlat f = true
  | [], _ => rfl
  | p :: f, h => by
    obtain ⟨hp, hf⟩ := windowless_cons.1 h
    rw [areFlat, isFlat_of_hasWindow_eq_false hp, areFlat_of_windowless hf, Bool.and_true]

end

lemma areFlat_append (f g : Fragment) : areFlat (f ++ g) = (areFlat f && areFlat g) := by
  induction f with
  | nil => rfl
  | cons p f ih => rw [List.cons_append, areFlat, areFlat, ih, Bool.and_assoc]

/-- A piece without windows that opens none is clear of whatever stands beside it. -/
lemma clear_token_left {t : Token} (h : t.opensWindow = false) : (Piece.token t).Clear q :=
  ⟨fun ht => absurd (h.symm.trans ht) Bool.false_ne_true, fun _ => h⟩

lemma clear_token_right {t : Token} (h : t.opensWindow = false) : p.Clear (.token t) :=
  ⟨fun _ => h, fun ht => absurd (h.symm.trans ht) Bool.false_ne_true⟩

end Piece

namespace Fragment

variable {f g : Fragment}

/-- What has no window function has none within another. -/
lemma Windowless.flat (h : f.Windowless) : f.Flat :=
  ⟨Piece.isChain_clear h, Piece.areFlat_of_windowless h⟩

lemma flat_append_iff : (f ++ g).Flat ↔
    f.Flat ∧ g.Flat ∧ ∀ p ∈ f.getLast?, ∀ q ∈ g.head?, p.Clear q := by
  rw [Flat, List.isChain_append, Piece.areFlat_append, Bool.and_eq_true_iff]
  constructor
  · rintro ⟨⟨hf, hg, hclear⟩, hf', hg'⟩
    exact ⟨⟨hf, hf'⟩, ⟨hg, hg'⟩, hclear⟩
  · rintro ⟨⟨hf, hf'⟩, ⟨hg, hg'⟩, hclear⟩
    exact ⟨⟨hf, hg, hclear⟩, hf', hg'⟩

@[simp]
lemma flat_nil : Flat [] :=
  windowless_nil.flat

@[simp]
lemma flat_paren : (paren f).Flat ↔ f.Flat := by
  simp [paren, Flat, Piece.areFlat, Piece.isFlat, Bracket.selected?]

/-- Neighbours of a fixed text do not meet. -/
lemma flat_append_text_append (s : String) [h : Common s] :
    (f ++ text s ++ g).Flat ↔ f.Flat ∧ g.Flat := by
  have hs : (Token.text s).opensWindow = false := h.opensWindow_eq_false
  rw [flat_append_iff, flat_append_iff, and_iff_right (windowless_text s).flat]
  constructor
  · rintro ⟨⟨hf, -⟩, hg, -⟩
    exact ⟨hf, hg⟩
  · rintro ⟨hf, hg⟩
    refine ⟨⟨hf, ?_⟩, hg, ?_⟩
    · rintro p - _ ⟨⟩
      exact Piece.clear_token_right hs
    · rintro p hp q -
      rw [text, List.getLast?_append, List.getLast?_singleton] at hp
      cases hp
      exact Piece.clear_token_left hs

lemma flat_joined (separator : String) [Common separator] {fs : List Fragment} :
    (joined separator fs).Flat ↔ ∀ f ∈ fs, f.Flat := by
  induction fs with
  | nil => simp [joined]
  | cons f fs ih =>
    cases fs with
    | nil => simp [joined]
    | cons g gs => rw [joined, flat_append_text_append, ih, List.forall_mem_cons (a := f)]

@[simp]
lemma flat_call {name : String} [Common name] {args : List Fragment} :
    (call name args).Flat ↔ ∀ f ∈ args, f.Flat := by
  have h := flat_append_text_append (f := []) (g := paren (commas args)) name
  rw [List.nil_append, flat_paren, and_iff_right flat_nil, commas, flat_joined] at h
  exact h

/-- A window function of arguments without windows is flat if there are none in its clause. -/
lemma flat_append_over {head clause : Fragment} (h : head.Windowless) :
    (head ++ (text " OVER " ++ paren clause)).Flat ↔ clause.Windowless := by
  rw [flat_append_iff, flat_append_iff, flat_paren]
  constructor
  · rintro ⟨-, ⟨-, -, hclear⟩, -⟩
    have hclause := (hclear (.token (.text " OVER ")) rfl (.group .round clause) rfl).1 rfl
    exact hclause
  · intro hclause
    refine ⟨h.flat, ⟨⟨.singleton _, rfl⟩, hclause.flat, ?_⟩, ?_⟩
    · rintro _ ⟨⟩ _ ⟨⟩
      exact ⟨fun _ => hclause, fun h => absurd h Bool.false_ne_true⟩
    · rintro p hp _ ⟨⟩
      have hwindow := windowless_iff.1 h p (List.mem_of_getLast? hp)
      refine ⟨fun hopens => ?_, fun _ => hwindow⟩
      rw [Piece.hasWindow_of_opensWindow hopens] at hwindow
      cases hwindow

end Fragment

/-! ## Rendering -/

/-- Fragments are related if they are the same, and have no window function in them. -/
def FragmentLogic.windowless (V : Reference → Prop := fun _ => True) : FragmentLogic where
  Rel _ f g := f = g ∧ f.Windowless
  Stored _ := True
  Speaks d d' := d = d'
  Lists _ := True
  Checked := True
  Visible := V
  features h := .of_eq h
  mono _ h := h
  nil := ⟨rfl, windowless_nil⟩
  append := by
    rintro _ _ _ _ _ ⟨rfl, h⟩ ⟨rfl, h'⟩
    exact ⟨rfl, windowless_append.2 ⟨h, h'⟩⟩
  plain := by
    intro _ t h
    refine ⟨rfl, windowless_token.2 ?_⟩
    cases t with
    | text => cases h
    | _ => rfl
  text s h := ⟨rfl, windowless_text s⟩
  said _ h := ⟨rfl, windowless_token.2 h.opensWindow_eq_false⟩
  column _ := ⟨rfl, rfl⟩
  table _ := ⟨rfl, rfl⟩
  group := by
    rintro _ b f _ _ _ _ ⟨rfl, h⟩
    refine ⟨rfl, windowless_cons.2 ⟨?_, windowless_nil⟩⟩
    rw [Piece.hasWindow, h, Bool.and_false]
  name := by
    rintro _ _ _ _ ⟨rfl, _⟩ _
    rfl

/-- Runs over rows that show no windows, as a relation that respects how computations are built. -/
def RenderLogic.windowless (data : String) (V : Reference → Prop := fun _ => True) :
    RenderLogic :=
  .alike (.windowless V) (fun _ _ => ⟨rfl, rfl⟩) (fun _ => True) (fun _ => trivial) data

variable {data : String} {V : Reference → Prop} {env : Env} {e : Expr}

lemma RenderLogic.extracts_windowless (type : Option JsonType) :
    (RenderLogic.windowless data V).Extracts type :=
  FragmentLogic.extracts_all (rfl : Dialect.oracle26ai = .oracle26ai) rfl type

lemma RenderLogic.known_windowless (h : ∀ x ∈ e.references, V x) :
    (RenderLogic.windowless data V).Known e :=
  fun n hn => ⟨fun x hx => h x (List.mem_filterMap.2 ⟨n, hn, hx⟩), fun _ _ => trivial,
    extracts_windowless _, fun _ _ => trivial⟩

/-- What reads no window renders none. -/
lemma Render.yields_windowless {α : Type} {r : Render α} {P : α → Prop}
    (h : ∀ x, V x → ∀ f ∈ x.texts env.scope, f.Windowless)
    (hrun : ∀ Γ, (RenderLogic.windowless env.dataColumn V).Run (some Γ) (fun a _ => P a) r r) :
    r.Yields env P := by
  refine (hrun env.sight).yields_self ⟨env.envRel_sight rfl (fun _ => trivial) ?_ ?_, rfl, rfl⟩
  · exact fun x hx f hf => ⟨rfl, h x hx f hf⟩
  · exact fun _ => trivial

/-- An expression that reads no window is rendered without one. -/
lemma Expr.yields_windowless (h : ∀ x ∈ e.references, ∀ f ∈ x.texts env.scope, f.Windowless)
    (type : Option JsonType) : ((Reading.ofExpr e).value type).Yields env Windowless := by
  refine Render.yields_windowless h fun Γ => ?_
  let L := RenderLogic.windowless env.dataColumn (· ∈ e.references)
  have hknown : L.Known e := RenderLogic.known_windowless fun _ hx => hx
  have htype : L.Extracts type := RenderLogic.extracts_windowless type
  exact ((RenderLogic.reads_ofExpr e hknown).value Γ type).imp fun _ _ h => h.2

/-- What is read of a row whose texts have no windows has none. -/
lemma Reference.windowless_texts {σ : Scope} (h : ∀ f ∈ σ.texts, f.Windowless) (x : Reference) :
    ∀ f ∈ x.texts σ, f.Windowless := by
  intro f hf
  obtain ⟨_, _, hrel⟩ := exists_rel_texts (L := .windowless) (fun _ => trivial)
    (fun _ f hf => ⟨rfl, h f hf⟩) x f hf
  exact hrel.2

end PipelineSql
