import PipelineSql.Grammar
import Mathlib.Tactic.Common

/-!
# What is read

What holds of the value of a result, if it has one, follows how the result is built, and so does
what holds of the error. So what the grammar grants to the stage of every name holds of every stage of a
pipeline that is read.
-/

namespace PipelineSql

/-- Does the error report a stage that writes where it may not? -/
def Error.isMisplacement : Error → Bool
  | .structural (.misplaced _) => true
  | _ => false

/-- Does the error stand for a step that no renderer is to take? It met too few arguments or an
operator of the other kind, which the shape of its node rules out, or its sum is no integer. -/
def Error.isMisstep : Error → Bool
  | .structural .noMember | .structural (.isCondition _) | .structural (.notCondition _)
  | .structural (.malformed _) | .structural .overflow => true
  | _ => false

/-- Is the error neither about the place of a stage nor a misstep? -/
def Error.isOrdinary (e : Error) : Bool :=
  !e.isMisplacement && !e.isMisstep

namespace Arity

/-- A number is admitted if it is between the bounds. -/
lemma admits_iff {a : Arity} {n : Nat} :
    a.admits n = true ↔ a.least ≤ n ∧ ∀ most ∈ a.most, n ≤ most := by
  obtain ⟨least, most⟩ := a
  rw [admits, Bool.and_eq_true, decide_eq_true_iff]
  cases most <;> simp

/-- Only one number is admitted. -/
lemma admits_exactly {k n : Nat} : (exactly k).admits n = true ↔ n = k := by
  rw [admits_iff]
  simp [exactly]
  omega

/-- All numbers from one on are admitted. -/
lemma admits_atLeast {k n : Nat} : (atLeast k).admits n = true ↔ k ≤ n := by
  rw [admits_iff]
  simp [atLeast]

/-- The numbers between two are admitted. -/
lemma admits_between {k l n : Nat} : (between k l).admits n = true ↔ k ≤ n ∧ n ≤ l := by
  rw [admits_iff]
  simp [between]

end Arity

namespace Result

variable {α β : Type} {F : Error → Prop} {P : α → Prop} {Q : β → Prop} {x : Result α}
  {k : α → Result β}

/-- The value, if there is one, has the property, and the error, if there is one, is of the kind. -/
def Satisfies (F : Error → Prop) (x : Result α) (P : α → Prop) : Prop :=
  match x with
  | .ok a => P a
  | .error e => F e

/-- The value, if there is one, has the property. -/
abbrev Grants (x : Result α) (P : α → Prop) : Prop :=
  Satisfies (fun _ => True) x P

/-- The value, if there is one, has the property, and the error, if there is one, is ordinary. -/
abbrev Ensures (x : Result α) (P : α → Prop) : Prop :=
  Satisfies (fun e => e.isOrdinary = true) x P

/-- The error, if there is one, is of the kind. -/
class Refuses (F : Error → Prop) (x : Result α) : Prop where
  satisfies : Satisfies F x fun _ => True

/-- A result whose error, if there is one, is ordinary. -/
abbrev Ordinary (x : Result α) : Prop :=
  Refuses (fun e => e.isOrdinary = true) x

instance : Refuses (fun _ => True) x where
  satisfies := by cases x <;> trivial

/-- A value that is returned has the property. -/
lemma Satisfies.value {a : α} (h : Satisfies F x P) (hx : x = .ok a) : P a := by
  subst hx
  exact h

/-- An error that is returned may occur. -/
lemma Satisfies.error {e : Error} (h : Satisfies F x P) (hx : x = .error e) : F e := by
  subst hx
  exact h

/-- What is returned at once has its property. -/
lemma ensures_pure {a : α} (h : P a) : Satisfies F (pure a) P :=
  h

/-- An error that may occur satisfies every property. -/
lemma ensures_error {e : Error} (h : F e) : Satisfies F (.error e) P :=
  h

/-- One result after another: the second relies on what the first ensures. -/
lemma ensures_bind (hx : Satisfies F x P) (hk : ∀ a, P a → Satisfies F (k a) Q) :
    Satisfies F (x >>= k) Q := by
  cases x with
  | ok a => exact hk a hx
  | error e => exact ensures_error hx

/-- Nothing need be known of the value in the middle. -/
lemma ensures_then [h : Refuses F x] (hk : ∀ a, Satisfies F (k a) Q) : Satisfies F (x >>= k) Q :=
  ensures_bind h.satisfies fun a _ => hk a

/-- Both branches ensure the property. -/
lemma ensures_ite {c : Prop} [Decidable c] {y : Result α} (hx : Satisfies F x P)
    (hy : Satisfies F y P) : Satisfies F (if c then x else y) P := by
  split
  · exact hx
  · exact hy

/-- A weaker property is satisfied as well. -/
lemma Satisfies.imp {P' : α → Prop} (h : Satisfies F x P) (hP : ∀ a, P a → P' a) :
    Satisfies F x P' := by
  cases x with
  | ok a => exact hP a h
  | error e => exact h

/-- The value is the one that is there. -/
lemma ensures_self [h : Refuses F x] : Satisfies F x fun a => x = .ok a := by
  cases x with
  | ok a => rfl
  | error e => exact h.satisfies

/-- Of results for all elements each has the property. -/
lemma ensures_mapM {f : α → Result β} {xs : List α} (h : ∀ a ∈ xs, Satisfies F (f a) Q) :
    Satisfies F (xs.mapM f) fun ys => ∀ b ∈ ys, Q b := by
  induction xs with
  | nil => exact ensures_pure (List.forall_mem_nil Q)
  | cons a xs ih =>
    obtain ⟨ha, hxs⟩ := List.forall_mem_cons.1 h
    rw [List.mapM_cons]
    refine ensures_bind ha fun b hb => ?_
    refine ensures_bind (ih hxs) fun bs hbs => ?_
    exact ensures_pure (List.forall_mem_cons.2 ⟨hb, hbs⟩)

/-- A check of all elements ensures what it checks of each. -/
lemma ensures_forM {f : α → Result Unit} {xs : List α}
    (h : ∀ a ∈ xs, Satisfies F (f a) fun _ => P a) :
    Satisfies F (xs.forM f) fun _ => ∀ a ∈ xs, P a := by
  induction xs with
  | nil => exact ensures_pure (List.forall_mem_nil P)
  | cons a xs ih =>
    obtain ⟨ha, hxs⟩ := List.forall_mem_cons.1 h
    change Satisfies F (f a >>= fun _ => xs.forM f) _
    refine ensures_bind ha fun _ ha => (ih hxs).imp fun _ hxs => ?_
    exact List.forall_mem_cons.2 ⟨ha, hxs⟩

/-! ## Refusals -/

instance {a : α} : Refuses F (pure a : Result α) where
  satisfies := trivial

instance [h : Refuses F x] [hk : ∀ a, Refuses F (k a)] : Refuses F (x >>= k) where
  satisfies := ensures_bind h.satisfies fun a _ => (hk a).satisfies

instance {c : Prop} [Decidable c] {y : Result α} [h : Refuses F x] [h' : Refuses F y] :
    Refuses F (if c then x else y) where
  satisfies := ensures_ite h.satisfies h'.satisfies

instance {f : α → Result β} {xs : List α} [h : ∀ a, Refuses F (f a)] : Refuses F (xs.mapM f) where
  satisfies := (ensures_mapM fun a _ => (h a).satisfies).imp fun _ _ => trivial

/-- A fault that is an ordinary error ends in one. -/
lemma ordinary_fault {f : Fault} (h : (Error.structural f).isOrdinary = true) :
    Ordinary (fault f : Result α) where
  satisfies := h

instance (l : Limitation) : Ordinary (unsupported l : Result α) where
  satisfies := rfl

instance (name : String) (bounds : Arity) (n : Nat) : Ordinary (checkArity name bounds n) := by
  have := ordinary_fault (α := Unit) (f := .arity name bounds n) rfl
  unfold checkArity
  infer_instance

/-- The check of a number of arguments ensures its bounds. -/
lemma ensures_checkArity (name : String) (bounds : Arity) (n : Nat) :
    Ensures (checkArity name bounds n) fun _ => bounds.admits n = true := by
  unfold checkArity
  split
  · exact ensures_pure ‹_›
  · exact ensures_error rfl

instance (e : Expr) : Ordinary e.checkShape := by
  unfold Expr.checkShape
  split <;> first | infer_instance | exact ordinary_fault rfl

/-! ## Names -/

/-- The check of a field name ensures that it is one. -/
lemma ensures_checkFieldName (name : String) :
    Ensures (checkFieldName name) fun _ => (Path.ofString name).isFieldName = true := by
  unfold checkFieldName
  split
  · exact ensures_error rfl
  · split
    · exact ensures_pure ‹_›
    · exact ensures_error rfl

/-- The check of a table name ensures that it is one. -/
lemma ensures_checkTableName (name : String) :
    Ensures (checkTableName name) fun _ => isTableName name = true := by
  unfold checkTableName
  split
  · exact ensures_pure ‹_›
  · exact ensures_error rfl

/-- A field that is read has a name and no type. -/
lemma ensures_fieldOfString (text : String) :
    Ensures (FieldPath.ofString text) fun f => f.path.isFieldName = true ∧ f.type = none := by
  unfold FieldPath.ofString
  dsimp only
  split
  · exact ensures_error rfl
  · exact ensures_bind (ensures_checkFieldName _) fun _ h => ensures_pure ⟨h, rfl⟩

end Result

namespace Phrase

open Result

variable {P : Stage → Prop}

/-- The phrases of items are those of each. -/
lemma ofJsonItems_eq (items : List Json) : ofJsonItems items = items.map ofJson := by
  induction items with
  | nil => rfl
  | cons j js ih => rw [ofJsonItems, ih, List.map_cons]

/-- A stage is read by its name, whatever else the object says. -/
lemma ensures_stage (h : ∀ name spec, Grants (Grammar.stageNamed name spec) P) (j : Json) :
    Grants (ofJson j).stage P := by
  cases j with
  | obj entries => exact ensures_then fun entry => h entry.1 entry.2
  | _ => exact ensures_error trivial

/-- What holds of the stages of all names holds of the stages that are read. -/
lemma ensures_pipeline (h : ∀ name spec, Grants (Grammar.stageNamed name spec) P) (j : Json) :
    Grants (parsePipeline j) fun stages => ∀ s ∈ stages, P s := by
  cases j with
  | arr items =>
    refine ensures_mapM fun p hp => ?_
    rw [ofJsonItems_eq] at hp
    obtain ⟨j, -, rfl⟩ := List.mem_map.1 hp
    exact ensures_stage h j
  | _ => exact ensures_error trivial

/-! ## Phrases at any depth -/

/-- A phrase of which something holds, as it does of all phrases inside it. -/
inductive Throughout (Q : Phrase → Prop) : Phrase → Prop where
  | mk {p : Phrase} (items : ∀ q ∈ p.items, Throughout Q q)
    (entries : ∀ entry ∈ p.entries, Throughout Q entry.2) (self : Q p) : Throughout Q p

namespace Throughout

variable {Q R : Phrase → Prop} {p : Phrase}

/-- What holds throughout a phrase holds throughout its items. -/
lemma items (h : Throughout Q p) : ∀ q ∈ p.items, Throughout Q q := by
  cases h
  assumption

/-- What holds throughout a phrase holds throughout its entries. -/
lemma entries (h : Throughout Q p) : ∀ entry ∈ p.entries, Throughout Q entry.2 := by
  cases h
  assumption

/-- What holds throughout a phrase holds of it. -/
lemma self (h : Throughout Q p) : Q p := by
  cases h
  assumption

/-- A weaker property holds throughout as well. -/
protected lemma imp (h : Throughout Q p) (hR : ∀ q, Q q → R q) : Throughout R p := by
  induction h with
  | mk _ _ self ihi ihe => exact .mk ihi ihe (hR _ self)

end Throughout

/-- What a phrase has if its parts have it throughout. -/
structure Inherited (Q : Phrase → Prop) : Prop where
  constant : ∀ json l, Q (ofScalar json (pure (.lit l)))
  reference : ∀ s, Q (ofScalar (.str s) (Grammar.reference s))
  items : ∀ json items, (∀ q ∈ items, Throughout Q q) → Q (ofItems json items)
  entries : ∀ json entries, (∀ entry ∈ entries, Throughout Q entry.2) →
    Q (ofEntries json entries)

variable {Q : Phrase → Prop}

mutual

/-- What is inherited is had by all that is read. -/
lemma throughout_ofJson (h : Inherited Q) : ∀ j, Throughout Q (ofJson j)
  | .null | .bool _ | .num _ =>
    .mk (List.forall_mem_nil _) (List.forall_mem_nil _) (h.constant _ _)
  | .str s => .mk (List.forall_mem_nil _) (List.forall_mem_nil _) (h.reference s)
  | .arr items =>
    have hitems := throughout_ofJsonItems h items
    .mk hitems (List.forall_mem_nil _) (h.items _ _ hitems)
  | .obj entries =>
    have hentries := throughout_ofJsonEntries h entries
    .mk (List.forall_mem_nil _) hentries (h.entries _ _ hentries)

/-- An inherited property holds throughout the phrases of items. -/
lemma throughout_ofJsonItems (h : Inherited Q) :
    ∀ items, ∀ q ∈ ofJsonItems items, Throughout Q q
  | [] => List.forall_mem_nil _
  | j :: js => List.forall_mem_cons.2 ⟨throughout_ofJson h j, throughout_ofJsonItems h js⟩

/-- An inherited property holds throughout the phrases of entries. -/
lemma throughout_ofJsonEntries (h : Inherited Q) :
    ∀ entries, ∀ entry ∈ ofJsonEntries entries, Throughout Q entry.2
  | [] => List.forall_mem_nil _
  | (_, j) :: rest =>
    List.forall_mem_cons.2 ⟨throughout_ofJson h j, throughout_ofJsonEntries h rest⟩

end

/-! ## Parts of a phrase -/

section Ordinary

variable (p : Phrase) (doc : Phrases) (what : String)

instance (allowed : List String) : Ordinary (doc.only allowed what) := by
  unfold Phrases.only
  split
  · exact ordinary_fault rfl
  · infer_instance

instance (key : String) : Ordinary (doc.required key what) := by
  unfold Phrases.required
  split
  · infer_instance
  · exact ordinary_fault rfl

instance {α : Type} (key : String) (reader : Phrase → Result α) [∀ p, Ordinary (reader p)] :
    Ordinary (doc.optional key reader) := by
  unfold Phrases.optional
  split <;> infer_instance

instance : Ordinary (doc.single what) := by
  unfold Phrases.single
  split
  · infer_instance
  · exact ordinary_fault rfl

instance : Ordinary (p.document what) := by
  unfold document
  split
  · infer_instance
  · exact ordinary_fault rfl

instance : Ordinary (p.array what) := by
  unfold array
  split
  · infer_instance
  · exact ordinary_fault rfl

instance : Ordinary (p.string what) := by
  unfold string
  split
  · infer_instance
  · exact ordinary_fault rfl

instance : Ordinary (p.integer what) := by
  unfold integer
  split
  · split
    · infer_instance
    · exact ordinary_fault rfl
  · exact ordinary_fault rfl

instance : Ordinary (p.boolean what) := by
  unfold boolean
  split
  · infer_instance
  · exact ordinary_fault rfl

instance : Ordinary (p.literal what) := by
  unfold literal
  split
  · infer_instance
  · exact ordinary_fault rfl

instance : Ordinary (p.names what) := by
  unfold names
  split <;> infer_instance

end Ordinary

section Parts

variable {α : Type} {A : α → Prop} {p : Phrase} {doc : Phrases}

/-- An entry that is found is one of the document. -/
lemma throughout_of_lookup (h : ∀ entry ∈ doc, Throughout Q entry.2) {key : String}
    (hp : doc.lookup key = some p) : Throughout Q p := by
  induction doc with
  | nil => cases hp
  | cons entry rest ih =>
    obtain ⟨hentry, hrest⟩ := List.forall_mem_cons.1 h
    rw [List.lookup_cons] at hp
    split at hp
    · cases hp
      exact hentry
    · exact ih hrest hp

/-- A required entry is one of the document. -/
lemma ensures_required (h : ∀ entry ∈ doc, Throughout Q entry.2) (key what : String) :
    Ensures (doc.required key what) (Throughout Q) := by
  unfold Phrases.required
  split
  · exact ensures_pure (throughout_of_lookup h ‹_›)
  · exact ensures_error rfl

/-- An optional entry is read if it is there. -/
lemma ensures_optional {key : String} {reader : Phrase → Result α}
    (h : ∀ p, doc.lookup key = some p → Ensures (reader p) A) :
    Ensures (doc.optional key reader) fun o => ∀ a ∈ o, A a := by
  unfold Phrases.optional
  split
  · refine ensures_bind (h _ ‹_›) fun a ha => ensures_pure ?_
    rintro _ ⟨⟩
    exact ha
  · exact ensures_pure (by rintro _ ⟨⟩)

/-- The entries of a document are parts of the phrase. -/
lemma ensures_document (h : Throughout Q p) (what : String) :
    Ensures (p.document what) fun doc => ∀ entry ∈ doc, Throughout Q entry.2 := by
  unfold document
  split
  · exact ensures_pure h.entries
  · exact ensures_error rfl

/-- The items of an array are parts of the phrase. -/
lemma ensures_array (h : Throughout Q p) (what : String) :
    Ensures (p.array what) fun items => ∀ q ∈ items, Throughout Q q := by
  unfold array
  split
  · exact ensures_pure h.items
  · exact ensures_error rfl

/-- The only entry of a document is a part of the phrase. -/
lemma ensures_single (h : ∀ entry ∈ doc, Throughout Q entry.2) (what : String) :
    Ensures (doc.single what) fun entry => Throughout Q entry.2 := by
  unfold Phrases.single
  split
  · exact ensures_pure (h _ List.mem_cons_self)
  · exact ensures_error rfl

end Parts

end Phrase

end PipelineSql
