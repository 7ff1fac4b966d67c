import PipelineSql.Proofs.Relation.Coupling

/-!
# Bind values

The placeholders of a translation are numbered from 1 in the order of the text, and the value at a
position is the one that was emitted behind the slot which stands there. A translation that writes
its values in place is the one that binds them, with every placeholder replaced by its value.
-/

namespace PipelineSql

namespace Token

/-- Tokens with slots, the same tokens with placeholders numbered from `next` on, and the values of
the placeholders: each is the value behind the slot. -/
inductive Numbered (values : List Literal) :
    Nat → List Token → List Token → List Literal → Prop where
  | nil {next} : Numbered values next [] [] []
  | slot {next slot l ts us ls} : values[slot]? = some l → Numbered values (next + 1) ts us ls →
    Numbered values next (.bind slot :: ts) (.bind next :: us) (l :: ls)
  | other {next t ts us ls} : t.slot? = none → Numbered values next ts us ls →
    Numbered values next (t :: ts) (t :: us) ls

/-- Tokens with placeholders, as many values, and the tokens with the values written in the place of
the placeholders. -/
inductive Filled : List Token → List Literal → List Token → Prop where
  | nil : Filled [] [] []
  | slot {n l ts ls us} : Filled ts ls us → Filled (.bind n :: ts) (l :: ls) (literal l :: us)
  | other {t ts ls us} : t.slot? = none → Filled ts ls us → Filled (t :: ts) ls (t :: us)

variable {values : List Literal} {next : Nat} {ts us : List Token} {ls : List Literal}

/-- Numbering finds the value of every slot that is in range. -/
lemma numbered_numberFrom (values : List Literal) : ∀ (next : Nat) (ts : List Token),
    (∀ slot ∈ slots ts, slot < values.length) →
    Numbered values next ts (numberFrom values next ts).1 (numberFrom values next ts).2 := by
  intro next ts
  induction ts generalizing next with
  | nil => exact fun _ => .nil
  | cons t ts ih =>
    cases t with
    | bind slot =>
      intro h
      obtain ⟨hslot, hts⟩ := List.forall_mem_cons.1 h
      have hl : values[slot]? = some (values.getD slot .null) := by simp [hslot]
      exact .slot hl (ih (next + 1) hts)
    | _ => exact fun h => .other rfl (ih next h)

/-- The placeholders are the numbers from `next` on, one for each value. -/
lemma Numbered.slots (h : Numbered values next ts us ls) :
    Token.slots us = List.range' next ls.length := by
  induction h with
  | nil => rfl
  | slot _ _ ih => simp [Token.slots, slot?, List.range'_succ, ← ih]
  | other ht _ ih => simpa [Token.slots, ht] using ih

/-- The values fill the placeholders as they fill the slots. -/
lemma Numbered.filled (h : Numbered values next ts us ls) :
    Filled us ls (ts.map (written values)) := by
  induction h with
  | nil => exact .nil
  | @slot next slot l ts us ls hl _ ih =>
    have hw : written values (.bind slot) = literal l := by simp [written, hl]
    rw [List.map_cons, hw]
    exact .slot ih
  | other ht _ ih =>
    rw [List.map_cons, written_eq_self ht]
    exact .other ht ih

/-- Nothing is numbered where there are no slots. -/
lemma numberFrom_eq_self (values : List Literal) (next : Nat) (h : slots ts = []) :
    numberFrom values next ts = (ts, []) := by
  induction ts with
  | nil => rfl
  | cons t ts ih =>
    cases t with
    | bind slot => simp [slots, slot?] at h
    | _ => simp [numberFrom, ih h]

end Token

/-- The second rendition is the first with every value written in the place of its placeholder. -/
structure Rendition.Inlines (r r' : Rendition) : Prop where
  warnings : r'.warnings = r.warnings
  capability : r'.capability = r.capability
  binds : r'.binds = []
  tokens : Token.Filled r.tokens r.binds r'.tokens

/-- Coupled fragments are rendered alike. -/
lemma Coupled.inlines {Γ : Ctx} {f g : Fragment} {e e' : Emission} (h : Coupled e.values Γ f g)
    (he : e.InStep e') : (Rendition.of f.tokens e).Inlines (Rendition.of g.tokens e') := by
  have hg : g.tokens = f.tokens.map (Token.written e.values) := by
    rw [h.written, Fragment.tokens_written]
  have hnone : Token.number e'.values g.tokens = (g.tokens, []) :=
    Token.numberFrom_eq_self _ _ (by rw [hg, Token.slots_written])
  refine ⟨he.warnings, he.capability, ?_, ?_⟩
  · simp only [Rendition.of, hnone]
  · simp only [Rendition.of, hnone]
    rw [hg]
    exact (Token.numbered_numberFrom e.values 1 f.tokens h.slots).filled

/-- A translation that binds its values and one that writes them fail alike, or the second is the
first with the values in the place of their placeholders. -/
theorem translate_binding_modes_agree (p : Pipeline) (t : Target) (o : Options) :
    FragmentLogic.ResultRel Rendition.Inlines (translate p t { o with inlineBinds := false })
      (translate p t { o with inlineBinds := true }) := by
  have hadmitted : admitted p t { o with inlineBinds := false } =
      admitted p t { o with inlineBinds := true } := rfl
  unfold translate
  rw [hadmitted]
  cases admitted p t { o with inlineBinds := true } with
  | error x => exact .error
  | ok q =>
    have hout := outcome_compilation q t { o with inlineBinds := false }
    simp only [bind, Except.bind]
    generalize q.compilation t { o with inlineBinds := false } = x,
      q.compilation t { o with inlineBinds := true } = x' at hout
    cases hout with
    | ok hs he => exact .ok ((hs o.dialect).inlines he)
    | error _ => exact .error

/-- What is compiled is the pipeline itself, or what the passes make of it. -/
lemma eq_of_admitted {p q : Pipeline} {t : Target} {o : Options} (h : admitted p t o = .ok q) :
    (if o.optimize then p.optimize else p) = q := by
  unfold admitted at h
  cases hcheck : t.check with
  | error x =>
    rw [hcheck] at h
    cases h
  | ok _ =>
    rw [hcheck] at h
    simp only [bind, Except.bind] at h
    split at h
    · cases h
    · cases h
      rfl

/-- What a translation is made from. -/
lemma translate_eq_ok_iff {p : Pipeline} {t : Target} {o : Options} {r : Rendition} :
    translate p t o = .ok r ↔ ∃ q s e, admitted p t o = .ok q ∧ q.compilation t o = .ok s e ∧
      Rendition.of (s.fragment o.dialect).tokens e = r := by
  unfold translate
  cases hq : admitted p t o with
  | error x => simp [bind, Except.bind]
  | ok q =>
    simp only [bind, Except.bind]
    cases hc : q.compilation t o with
    | error x e => simp [throw, throwThe, MonadExceptOf.throw, hc]
    | ok s e => simp [pure, Except.pure, hc]

/-- The placeholders of a translation are `:1` to `:n` from left to right, for `n` bind values. They
stand where the statement has its slots, all of which are below the number of emitted values, and
each value is the one that was emitted behind the slot. -/
theorem translate_placeholders_numbered {p : Pipeline} {t : Target} {o : Options} {r : Rendition}
    (h : translate p t o = .ok r) :
    Token.slots r.tokens = List.range' 1 r.binds.length ∧
      ∃ q s e, admitted p t o = .ok q ∧ q.compilation t o = .ok s e ∧
        (∀ slot ∈ Token.slots (s.fragment o.dialect).tokens, slot < e.values.length) ∧
        Token.Numbered e.values 1 (s.fragment o.dialect).tokens r.tokens r.binds := by
  obtain ⟨q, s, e, hq, hs, rfl⟩ := translate_eq_ok_iff.1 h
  obtain ⟨f, hf⟩ := coupled_compilation hs o.dialect
  have hnumbered := Token.numbered_numberFrom e.values 1 _ hf.slots
  exact ⟨hnumbered.slots, q, s, e, hq, hs, hf.slots, hnumbered⟩

/-- A computed field that is selected and filtered by, in front of facets. -/
def largeTotals : Pipeline :=
  let field (name : String) : Expr := .field { path := ⟨[name]⟩ }
  { stages := [.addFields [(⟨["total"]⟩, .arith .add [field "qty", .lit (.int 5)])],
      .filter (.compare .gt (field "total") (.lit (.int 10))),
      .facet [(⟨["a"]⟩, [.filter (.compare .eq (field "name") (.lit (.string "x")))])]] }

/-- Three values are emitted, and one of them is bound twice. -/
theorem largeTotals_placeholders :
    ∃ r, translate largeTotals { collection := "orders" } {} = .ok r ∧
    Token.slots r.tokens = [1, 2, 3, 4] := by
  have hcheck : ((translate largeTotals { collection := "orders" } {}).toOption.any
      fun r => r.binds.length == 4) = true := by decide +kernel
  cases h : translate largeTotals { collection := "orders" } {} with
  | error x =>
    rw [h] at hcheck
    cases hcheck
  | ok r =>
    rw [h] at hcheck
    have hlength : r.binds.length = 4 := by simpa [Except.toOption] using hcheck
    refine ⟨r, rfl, ?_⟩
    rw [(translate_placeholders_numbered h).1, hlength]
    rfl

end PipelineSql
