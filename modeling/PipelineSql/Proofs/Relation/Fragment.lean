import Mathlib.Data.List.Forall2
import Mathlib.Tactic.Lemma
import Mathlib.Tactic.Monotonicity.Basic
import PipelineSql.Expr.Fields
import PipelineSql.Proofs.Wording
import PipelineSql.Sql.Statement

/-!
# Relations on fragments

Two runs of the compiler, or one run and itself, are compared through a relation on the fragments
that they write. `FragmentLogic` lists what such a relation must satisfy: it is a congruence for the
ways in which fragments are built, and the columns that a fragment reads are in sight. What is in
sight is a context `Ctx`, which changes from the outside of a bracket to its inside.
-/

namespace PipelineSql

/-- What a fragment may refer to. -/
structure Ctx where
  /-- The row sources of the query around the fragment. -/
  own : List RowSource := []
  /-- The row sources of the queries around that query. -/
  outer : List RowSource := []
  /-- The subqueries that go by names, with their columns. -/
  named : List (String × List String) := []

namespace Ctx

/-- All row sources in sight. -/
def sources (Γ : Ctx) : List RowSource :=
  Γ.own ++ Γ.outer

/-- The context inside a bracket. -/
def inside (Γ : Ctx) : Bracket → Ctx
  | .round | .cases => Γ
  | .query sources _ | .rows sources => { Γ with own := sources, outer := Γ.sources }
  | .derived => { Γ with own := [] }
  | .named subqueries => { Γ with named := subqueries ++ Γ.named }

/-- Does an offer include a column? -/
def Offers (Γ : Ctx) (column : String) : Offer → Prop
  | .stored _ _ => True
  | .named name => ∃ columns, (name, columns) ∈ Γ.named ∧ column ∈ columns
  | .columns columns => column ∈ columns

/-- Does a subquery go by the name? -/
def Names (Γ : Ctx) (name : String) : Prop :=
  ∃ columns, (name, columns) ∈ Γ.named

/-- Is the column one that a source in sight offers? -/
def Sees (Γ : Ctx) (label column : String) : Prop :=
  ∃ s ∈ Γ.sources, s.label = label ∧ Γ.Offers column s.offer

/-- More is in sight, also for the row sources of the query itself. -/
structure Le (Γ Δ : Ctx) : Prop where
  own : Γ.own ⊆ Δ.sources
  outer : Γ.outer ⊆ Δ.outer
  named : Γ.named ⊆ Δ.named

instance : LE Ctx := ⟨Le⟩

lemma Le.sources {Γ Δ : Ctx} (h : Γ ≤ Δ) : Γ.sources ⊆ Δ.sources :=
  List.append_subset.2 ⟨h.own, List.subset_append_of_subset_right _ h.outer⟩

lemma Le.trans {Γ Δ Θ : Ctx} (h₁ : Γ ≤ Δ) (h₂ : Δ ≤ Θ) : Γ ≤ Θ :=
  ⟨fun _ h => h₂.sources (h₁.own h), fun _ h => h₂.outer (h₁.outer h),
    fun _ h => h₂.named (h₁.named h)⟩

/-- What is offered stays offered when more is in sight. -/
lemma Offers.mono {Γ Δ : Ctx} {column : String} {o : Offer} (le : Γ ≤ Δ)
    (h : Γ.Offers column o) : Δ.Offers column o := by
  cases o with
  | stored _ _ => trivial
  | named name =>
    obtain ⟨columns, mem, hc⟩ := h
    exact ⟨columns, le.named mem, hc⟩
  | columns _ => exact h

/-- What is seen stays seen when more is in sight. -/
lemma Sees.mono {Γ Δ : Ctx} {label column : String} (le : Γ ≤ Δ) (h : Γ.Sees label column) :
    Δ.Sees label column := by
  obtain ⟨s, mem, hl, ho⟩ := h
  exact ⟨s, le.sources mem, hl, ho.mono le⟩

/-- The inside of a bracket sees more when its outside does. -/
lemma Le.inside {Γ Δ : Ctx} (h : Γ ≤ Δ) (b : Bracket) : Γ.inside b ≤ Δ.inside b := by
  cases b with
  | round => exact h
  | cases => exact h
  | query sources _ => exact ⟨List.subset_append_left _ _, h.sources, h.named⟩
  | rows sources => exact ⟨List.subset_append_left _ _, h.sources, h.named⟩
  | derived => exact ⟨List.nil_subset _, h.outer, h.named⟩
  | named subqueries =>
    exact ⟨h.own, h.outer, List.append_subset.2 ⟨List.subset_append_left _ _,
      List.subset_append_of_subset_right _ h.named⟩⟩

/-- A subquery in an expression sees all that the expression sees. -/
lemma le_inside_rows (Γ : Ctx) (sources : List RowSource) : Γ ≤ Γ.inside (.rows sources) := by
  refine ⟨fun s hs => ?_, List.subset_append_right _ _, List.Subset.refl _⟩
  exact List.mem_append_right _ (List.mem_append_left _ hs)

/-- A row source of a subquery in an expression sees all that the expression sees. -/
lemma le_inside_derived (Γ : Ctx) (sources : List RowSource) :
    Γ ≤ (Γ.inside (.rows sources)).inside .derived :=
  ⟨List.subset_append_left _ _, List.subset_append_right _ _, List.Subset.refl _⟩

/-- A source of the query itself is seen with the columns that it lists. -/
lemma sees_own {Γ : Ctx} {s : RowSource} {column : String} (hs : s ∈ Γ.own)
    (ho : Γ.Offers column s.offer) : Γ.Sees s.label column :=
  ⟨s, List.mem_append_left _ hs, rfl, ho⟩

end Ctx

/-- The names that the body of a bracket introduces. -/
def Bracket.labels : Bracket → List String
  | .query sources _ | .rows sources => sources.map RowSource.label
  | .named subqueries => subqueries.map Prod.fst
  | .round | .cases | .derived => []

/-- Does the body introduce every name that its bracket lists? -/
def Bracket.Declared (b : Bracket) (body : Fragment) : Prop :=
  ∀ label ∈ b.labels, Piece.token (.ident label) ∈ body

/-- Does the token stand for itself, without a slot or a source, and is it neither text nor a
table? -/
def Token.isPlain : Token → Bool
  | .column .. | .bind _ | .text _ | .table .. => false
  | _ => true

/-- Is the bracket other than the extent in which subqueries go by names? -/
def Bracket.isAnonymous : Bracket → Bool
  | .named _ => false
  | _ => true

/-- Does the token name a column of the row? -/
def Token.isName : Token → Bool
  | .column .. | .ident _ => true
  | _ => false

/-- The columns that the query in a bracket selects. -/
def Bracket.selected? : Bracket → Option (List (Option String))
  | .query _ columns => some columns
  | _ => none

/-- The releases have the same features, and where a document cannot be edited they are called the
same. -/
structure Dialect.Alike (d d' : Dialect) : Prop where
  boolean : d.hasBoolean = d'.hasBoolean
  jsonType : d.hasJsonType = d'.hasJsonType
  jsonTransform : d.hasJsonTransform = d'.hasJsonTransform
  name : d.hasJsonTransform = false → d.name = d'.name

namespace Dialect.Alike

variable {d d' : Dialect} (h : d.Alike d')

lemma refl (d : Dialect) : d.Alike d :=
  ⟨rfl, rfl, rfl, fun _ => rfl⟩

lemma of_eq {d d' : Dialect} (h : d = d') : d.Alike d' :=
  h ▸ refl d

include h

lemma bool (b : Bool) : d.bool b = d'.bool b := by
  unfold Dialect.bool
  rw [h.boolean]

lemma returnType (type : JsonType) : d.returnType type = d'.returnType type := by
  cases type with
  | boolean => rw [Dialect.returnType, Dialect.returnType, h.boolean]
  | json => rw [Dialect.returnType, Dialect.returnType, h.jsonType]
  | _ => rfl

lemma elementDefinition : d.elementDefinition = d'.elementDefinition := by
  rw [Dialect.elementDefinition, Dialect.elementDefinition, h.jsonType]

end Dialect.Alike

/-- A relation on fragments that respects how they are built. A table is a stored one, or a subquery
that goes by its name. Where subqueries go by names, a relation need not respect the bracket around
them, nor need it respect windows: see `FragmentLogic.Naming` and `FragmentLogic.Windowing`. -/
structure FragmentLogic where
  Rel : Ctx → Fragment → Fragment → Prop
  /-- The tables that are stored. -/
  Stored : String → Prop
  /-- The releases for which the two sides are written. -/
  Speaks : Dialect → Dialect → Prop
  /-- The columns that a query may select. -/
  Lists : List (Option String) → Prop
  /-- May sums of integers be checked? -/
  Checked : Prop := False
  /-- What may be read of a row. -/
  Visible : Reference → Prop := fun _ => True
  features : ∀ {d d'}, Speaks d d' → d.Alike d'
  mono : ∀ {Γ Δ f g}, Γ ≤ Δ → Rel Γ f g → Rel Δ f g
  nil : ∀ {Γ}, Rel Γ [] []
  append : ∀ {Γ f f' g g'}, Rel Γ f g → Rel Γ f' g' → Rel Γ (f ++ f') (g ++ g')
  plain : ∀ {Γ t}, t.isPlain = true → Rel Γ [.token t] [.token t]
  text : ∀ {Γ} (s : String) [Common s], Rel Γ [.token (.text s)] [.token (.text s)]
  said : ∀ {Γ d d' s}, Speaks d d' → d.Says s → Rel Γ [.token (.text s)] [.token (.text s)]
  column : ∀ {Γ source name}, Γ.Sees source name →
    Rel Γ [.token (.column source name)] [.token (.column source name)]
  table : ∀ {Γ schema name}, Stored name ∨ schema = none ∧ Γ.Names name →
    Rel Γ [.token (.table schema name)] [.token (.table schema name)]
  group : ∀ {Γ b f g}, b.isAnonymous = true → b.Declared f →
    (∀ columns ∈ b.selected?, Lists columns) → Rel (Γ.inside b) f g →
    Rel Γ [.group b f] [.group b g]
  /-- Related fragments are names of columns only together. -/
  name : ∀ {Γ f g t}, Rel Γ f g → t.isName = true → (f = [.token t] ↔ g = [.token t])

namespace FragmentLogic

/-- The relation respects also the brackets in which subqueries go by names. -/
def Naming (L : FragmentLogic) : Prop :=
  ∀ {Γ subqueries f g}, (Bracket.named subqueries).Declared f →
    L.Rel (Γ.inside (.named subqueries)) f g →
    L.Rel Γ [.group (.named subqueries) f] [.group (.named subqueries) g]

/-- The relation respects also the texts that open a window. -/
def Windowing (L : FragmentLogic) : Prop :=
  ∀ {Γ s}, s ∈ windowWords → L.Rel Γ [.token (.text s)] [.token (.text s)]

variable {L : FragmentLogic} {Γ : Ctx}

attribute [mono] List.Forall₂.nil List.Forall₂.cons Option.Rel.none Option.Rel.some

/-! ## Tokens and brackets -/

@[mono]
lemma rel_ofToken {t : Token} (h : t.isPlain = true) :
    L.Rel Γ (Fragment.ofToken t) (Fragment.ofToken t) :=
  L.plain h

@[mono]
lemma rel_nil : L.Rel Γ [] [] :=
  L.nil

@[mono]
lemma rel_text (s : String) [Common s] : L.Rel Γ (Fragment.text s) (Fragment.text s) :=
  L.text s

lemma rel_over (hw : L.Windowing) : L.Rel Γ (Fragment.text " OVER ") (Fragment.text " OVER ") :=
  hw List.mem_cons_self

lemma rel_rowNumberOver (hw : L.Windowing) :
    L.Rel Γ (Fragment.text "ROW_NUMBER() OVER ") (Fragment.text "ROW_NUMBER() OVER ") :=
  hw (List.mem_cons_of_mem _ List.mem_cons_self)

section Release

variable {d d' : Dialect} (hd : L.Speaks d d')

include hd

lemma rel_said {s : String} (h : d.Says s) : L.Rel Γ (Fragment.text s) (Fragment.text s) :=
  L.said hd h

@[mono]
lemma rel_bool (b : Bool) : L.Rel Γ (Fragment.text (d.bool b)) (Fragment.text (d'.bool b)) := by
  rw [← (L.features hd).bool]
  exact rel_said hd (d.says_bool b)

@[mono]
lemma rel_returnType (type : JsonType) :
    L.Rel Γ (Fragment.text (d.returnType type)) (Fragment.text (d'.returnType type)) := by
  rw [← (L.features hd).returnType]
  exact rel_said hd (d.says_returnType type)

end Release

@[mono]
lemma rel_string (s : String) : L.Rel Γ (Fragment.string s) (Fragment.string s) :=
  L.plain rfl

@[mono]
lemma rel_int (n : Int) : L.Rel Γ (Fragment.int n) (Fragment.int n) :=
  L.plain rfl

@[mono]
lemma rel_ident (name : String) : L.Rel Γ (Fragment.ident name) (Fragment.ident name) :=
  L.plain rfl

@[mono]
lemma rel_null : L.Rel Γ Fragment.null Fragment.null :=
  L.plain rfl

@[mono]
lemma rel_append {f f' g g' : Fragment} (h : L.Rel Γ f g) (h' : L.Rel Γ f' g') :
    L.Rel Γ (f ++ f') (g ++ g') :=
  L.append h h'

lemma rel_column {source name : String} (h : Γ.Sees source name) :
    L.Rel Γ (Fragment.column source name) (Fragment.column source name) :=
  L.column h

@[mono]
lemma rel_paren {f g : Fragment} (h : L.Rel Γ f g) :
    L.Rel Γ (Fragment.paren f) (Fragment.paren g) :=
  L.group rfl (by simp [Bracket.Declared, Bracket.labels]) (by simp [Bracket.selected?]) h

/-- A query in brackets is related as seen from outside the sources beside it. -/
lemma rel_derived {f g : Fragment} (h : L.Rel (Γ.inside .derived) f g) :
    L.Rel Γ (Fragment.derived f) (Fragment.derived g) :=
  L.group rfl (by simp [Bracket.Declared, Bracket.labels]) (by simp [Bracket.selected?]) h

/-- A subquery is related if its body is, with its sources in sight. -/
lemma rel_subquery {sources : List RowSource} {f g : Fragment}
    (decl : (Bracket.rows sources).Declared f) (h : L.Rel (Γ.inside (.rows sources)) f g) :
    L.Rel Γ (Fragment.subquery sources f) (Fragment.subquery sources g) :=
  rel_paren (L.group rfl decl (by simp [Bracket.selected?]) h)

/-- A column of the one source of a subquery, inside it. -/
@[mono]
lemma rel_ownColumn {label name : String} {columns : List String} (h : name ∈ columns) :
    L.Rel (Γ.inside (.rows [⟨label, .columns columns⟩])) (Fragment.column label name)
      (Fragment.column label name) :=
  rel_column (Ctx.sees_own (s := ⟨label, .columns columns⟩) List.mem_cons_self h)

/-! ## Sequences -/

@[mono]
lemma rel_joined (separator : String) [Common separator] {fs gs : List Fragment}
    (h : List.Forall₂ (L.Rel Γ) fs gs) :
    L.Rel Γ (Fragment.joined separator fs) (Fragment.joined separator gs) := by
  induction h with
  | nil => exact L.nil
  | @cons f g fs gs hfg hs ih =>
    cases hs with
    | nil => exact hfg
    | cons => exact L.append (L.append hfg (rel_text _)) ih

@[mono]
lemma rel_commas {fs gs : List Fragment} (h : List.Forall₂ (L.Rel Γ) fs gs) :
    L.Rel Γ (Fragment.commas fs) (Fragment.commas gs) :=
  rel_joined _ h

@[mono]
lemma rel_call {name : String} [Common name] {fs gs : List Fragment}
    (h : List.Forall₂ (L.Rel Γ) fs gs) :
    L.Rel Γ (Fragment.call name fs) (Fragment.call name gs) :=
  L.append (rel_text _) (rel_paren (rel_commas h))

/-! Calls with one, two and three arguments, and two fragments with a text between them. -/

lemma rel_call₁ {name : String} [Common name] {f g : Fragment} (h : L.Rel Γ f g) :
    L.Rel Γ (Fragment.call name [f]) (Fragment.call name [g]) :=
  rel_call (.cons h .nil)

lemma rel_call₂ {name : String} [Common name] {f₁ f₂ g₁ g₂ : Fragment} (h₁ : L.Rel Γ f₁ g₁)
    (h₂ : L.Rel Γ f₂ g₂) : L.Rel Γ (Fragment.call name [f₁, f₂]) (Fragment.call name [g₁, g₂]) :=
  rel_call (.cons h₁ (.cons h₂ .nil))

lemma rel_call₃ {name : String} [Common name] {f₁ f₂ f₃ g₁ g₂ g₃ : Fragment} (h₁ : L.Rel Γ f₁ g₁)
    (h₂ : L.Rel Γ f₂ g₂) (h₃ : L.Rel Γ f₃ g₃) :
    L.Rel Γ (Fragment.call name [f₁, f₂, f₃]) (Fragment.call name [g₁, g₂, g₃]) :=
  rel_call (.cons h₁ (.cons h₂ (.cons h₃ .nil)))

lemma rel_separated {s : String} [Common s] {f f' g g' : Fragment} (h : L.Rel Γ f g)
    (h' : L.Rel Γ f' g') : L.Rel Γ (f ++ Fragment.text s ++ f') (g ++ Fragment.text s ++ g') :=
  rel_append (rel_append h (rel_text _)) h'

@[mono]
lemma rel_formatted {f g : Fragment} {json : Bool} (h : L.Rel Γ f g) :
    L.Rel Γ (f.formatted json) (g.formatted json) := by
  cases json with
  | false => exact h
  | true => exact L.append h (rel_text _)

/-- Concatenation respects the relation. -/
lemma rel_flatten {fs gs : List Fragment} (h : List.Forall₂ (L.Rel Γ) fs gs) :
    L.Rel Γ fs.flatten gs.flatten := by
  induction h with
  | nil => exact L.nil
  | cons hfg _ ih => exact L.append hfg ih

/-- A fragment is related to itself if its parts are. -/
lemma forall₂_self {fs : List Fragment} (h : ∀ f ∈ fs, L.Rel Γ f f) :
    List.Forall₂ (L.Rel Γ) fs fs :=
  List.forall₂_same.2 h

/-- Branches of a `CASE` are related in both parts. -/
def Branch (L : FragmentLogic) (Γ : Ctx) (b b' : Fragment × Fragment) : Prop :=
  L.Rel Γ b.1 b'.1 ∧ L.Rel Γ b.2 b'.2

@[mono]
lemma branch_mk {f f' g g' : Fragment} (h : L.Rel Γ f f') (h' : L.Rel Γ g g') :
    L.Branch Γ (f, g) (f', g') :=
  ⟨h, h'⟩

lemma rel_branches {bs bs' : List (Fragment × Fragment)}
    (h : List.Forall₂ (L.Branch Γ) bs bs') :
    L.Rel Γ (bs.flatMap fun b => Fragment.text " WHEN " ++ b.1 ++ Fragment.text " THEN " ++ b.2)
      (bs'.flatMap fun b => Fragment.text " WHEN " ++ b.1 ++ Fragment.text " THEN " ++ b.2) := by
  induction h with
  | nil => exact L.nil
  | cons hb _ ih =>
    have hhead := L.append (L.append (L.append (rel_text " WHEN ") hb.1) (rel_text " THEN ")) hb.2
    exact L.append hhead ih

lemma rel_cases {bs bs' : List (Fragment × Fragment)} {o o' : Option Fragment}
    (h : List.Forall₂ (L.Branch Γ) bs bs') (ho : Option.Rel (L.Rel Γ) o o') :
    L.Rel Γ (Fragment.cases bs o) (Fragment.cases bs' o') := by
  refine L.group rfl (by simp [Bracket.Declared, Bracket.labels]) (by simp [Bracket.selected?])
    (L.append (rel_branches h) ?_)
  cases ho with
  | none => exact L.nil
  | some hv => exact L.append (rel_text _) hv

@[mono]
lemma rel_cases_some {bs bs' : List (Fragment × Fragment)} {f g : Fragment}
    (h : List.Forall₂ (L.Branch Γ) bs bs') (ho : L.Rel Γ f g) :
    L.Rel Γ (Fragment.cases bs (some f)) (Fragment.cases bs' (some g)) :=
  rel_cases h (.some ho)

@[mono]
lemma rel_cases_none {bs bs' : List (Fragment × Fragment)}
    (h : List.Forall₂ (L.Branch Γ) bs bs') :
    L.Rel Γ (Fragment.cases bs none) (Fragment.cases bs' none) :=
  rel_cases h .none

/-! ## Conditions -/

/-- Conditions of the same form, of related texts. -/
inductive Cond (L : FragmentLogic) (Γ : Ctx) : Condition → Condition → Prop where
  | constant (truth : Bool) : Cond L Γ (.constant truth) (.constant truth)
  | isNull {f g} : L.Rel Γ f g → Cond L Γ (.isNull f) (.isNull g)
  | isNotNull {f g} : L.Rel Γ f g → Cond L Γ (.isNotNull f) (.isNotNull g)
  | relation {op f f' g g'} : L.Rel Γ f g → L.Rel Γ f' g' →
    Cond L Γ (.relation op f f') (.relation op g g')
  | among {f g fs gs negated} : L.Rel Γ f g → List.Forall₂ (L.Rel Γ) fs gs →
    Cond L Γ (.among f fs negated) (.among g gs negated)
  | test {f g} : L.Rel Γ f g → Cond L Γ (.test f) (.test g)
  | testNot {f g} : L.Rel Γ f g → Cond L Γ (.testNot f) (.testNot g)
  | both {a a' b b'} : Cond L Γ a a' → Cond L Γ b b' → Cond L Γ (.both a b) (.both a' b')
  | all {cs cs'} : List.Forall₂ (Cond L Γ) cs cs' → Cond L Γ (.all cs) (.all cs')
  | any {cs cs'} : List.Forall₂ (Cond L Γ) cs cs' → Cond L Γ (.any cs) (.any cs')
  | none {cs cs'} : List.Forall₂ (Cond L Γ) cs cs' → Cond L Γ (.none cs) (.none cs')

attribute [mono] Cond.constant Cond.isNull Cond.isNotNull Cond.relation Cond.among Cond.test
  Cond.testNot Cond.both Cond.all Cond.any Cond.none

instance (truth : Bool) : Common (Condition.constantText truth) := by
  cases truth <;> constructor

instance (op : Comparison) : Common s!" {op.sql} " := by
  cases op <;> simp only [Comparison.sql, toString, String.reduceAppend] <;> constructor

mutual

/-- Related conditions have related texts. -/
@[mono]
lemma rel_condition : ∀ {c c' : Condition}, L.Cond Γ c c' → L.Rel Γ c.fragment c'.fragment
  | .constant _, _, .constant _ => rel_text _
  | .isNull _, _, .isNull h => rel_append h (rel_text _)
  | .isNotNull _, _, .isNotNull h => rel_append h (rel_text _)
  | .relation .., _, .relation h h' => rel_append (rel_append h (rel_text _)) h'
  | .among .., _, .among h hs =>
    rel_append (rel_append h (rel_text _)) (rel_paren (rel_commas hs))
  | .test _, _, .test h => h
  | .testNot _, _, .testNot h => rel_append (rel_text _) h
  | .both .., _, .both ha hb =>
    rel_append (rel_append (rel_condition ha) (rel_text _)) (rel_condition hb)
  | .all _, _, .all h => rel_paren (rel_joined _ (forall₂_fragments h))
  | .any _, _, .any h => rel_paren (rel_joined _ (forall₂_fragments h))
  | .none _, _, .none h =>
    rel_append (rel_text _) (rel_paren (rel_joined _ (forall₂_fragments h)))

@[mono]
lemma forall₂_fragments : ∀ {cs cs' : List Condition}, List.Forall₂ (L.Cond Γ) cs cs' →
    List.Forall₂ (L.Rel Γ) (Condition.fragments cs) (Condition.fragments cs')
  | [], _, .nil => .nil
  | _ :: _, _, .cons hc hcs => .cons (rel_condition hc) (forall₂_fragments hcs)

end

mutual

/-- Related conditions stay related where more is in sight. -/
lemma Cond.mono {Δ : Ctx} (le : Γ ≤ Δ) : ∀ {c c' : Condition}, L.Cond Γ c c' → L.Cond Δ c c'
  | .constant _, _, .constant _ => .constant _
  | .isNull _, _, .isNull h => .isNull (L.mono le h)
  | .isNotNull _, _, .isNotNull h => .isNotNull (L.mono le h)
  | .relation .., _, .relation h h' => .relation (L.mono le h) (L.mono le h')
  | .among .., _, .among h hs => .among (L.mono le h) (hs.imp fun _ _ => L.mono le)
  | .test _, _, .test h => .test (L.mono le h)
  | .testNot _, _, .testNot h => .testNot (L.mono le h)
  | .both .., _, .both ha hb => .both (ha.mono le) (hb.mono le)
  | .all _, _, .all h => .all (forall₂_cond_mono le h)
  | .any _, _, .any h => .any (forall₂_cond_mono le h)
  | .none _, _, .none h => .none (forall₂_cond_mono le h)

lemma forall₂_cond_mono {Δ : Ctx} (le : Γ ≤ Δ) : ∀ {cs cs' : List Condition},
    List.Forall₂ (L.Cond Γ) cs cs' → List.Forall₂ (L.Cond Δ) cs cs'
  | [], _, .nil => .nil
  | _ :: _, _, .cons hc hcs => .cons (hc.mono le) (forall₂_cond_mono le hcs)

end

/-- A branch for a condition. -/
lemma branch_cond {c c' : Condition} {f g : Fragment} (hc : L.Cond Γ c c') (h : L.Rel Γ f g) :
    L.Branch Γ (c.fragment, f) (c'.fragment, g) :=
  branch_mk (rel_condition hc) h

/-- A list of conditions is written as one fragment or not at all. -/
lemma rel_conjunction {cs cs' : List Condition} (h : List.Forall₂ (L.Cond Γ) cs cs') :
    Option.Rel (L.Rel Γ) (Condition.conjunction? cs) (Condition.conjunction? cs') := by
  cases h with
  | nil => exact .none
  | @cons c c' cs cs' hc hs =>
    refine .some ?_
    -- the accumulated text is the invariant of the fold
    have key : ∀ f g, L.Rel Γ f g →
        L.Rel Γ
          (cs.foldl (fun acc c =>
            Fragment.paren acc ++ Fragment.text " AND " ++ Fragment.paren c.fragment) f)
          (cs'.foldl (fun acc c =>
            Fragment.paren acc ++ Fragment.text " AND " ++ Fragment.paren c.fragment) g) := by
      induction hs with
      | nil => exact fun f g h => h
      | cons hd _ ih =>
        intro f g h
        exact ih _ _ (L.append (L.append (rel_paren h) (rel_text _)) (rel_paren (rel_condition hd)))
    exact key _ _ (rel_condition hc)

/-! ## Clauses -/

lemma rel_tableRef {t : TableRef} (h : L.Stored t.table ∨ t.schema = none ∧ Γ.Names t.table) :
    L.Rel Γ t.fragment t.fragment := by
  have hname : L.Rel Γ (Fragment.ofToken (.table t.schema t.table))
      (Fragment.ofToken (.table t.schema t.table)) := L.table h
  unfold TableRef.fragment
  dsimp only
  split
  · exact hname
  · exact rel_append (rel_append hname (rel_text _)) (rel_ident _)

@[mono]
lemma rel_rowWindow (w : RowWindow) : L.Rel Γ w.fragment w.fragment := by
  have hcount (n : Nat) : L.Rel Γ (countToken n : Fragment) (countToken n) := rel_ofToken rfl
  unfold RowWindow.fragment
  split
  · exact rel_nil
  · exact rel_append (rel_append (rel_text _) (hcount _)) (rel_text _)
  · exact rel_append (rel_append (rel_text _) (hcount _)) (rel_text _)
  · refine rel_append (rel_append (rel_append ?_ (rel_text _)) (hcount _)) (rel_text _)
    exact rel_append (rel_text _) (hcount _)

@[mono]
lemma rel_frameBound (b : FrameBound) : L.Rel Γ b.fragment b.fragment := by
  cases b with
  | unboundedPreceding => exact rel_text _
  | preceding n => exact rel_append (rel_ofToken rfl) (rel_text _)
  | currentRow => exact rel_text _
  | following n => exact rel_append (rel_ofToken rfl) (rel_text _)
  | unboundedFollowing => exact rel_text _

@[mono]
lemma rel_frame (f : Frame) : L.Rel Γ f.fragment f.fragment := by
  obtain ⟨kind, lower, upper⟩ := f
  cases upper with
  | none => cases kind <;> exact rel_append (rel_text _) (rel_frameBound lower)
  | some upper =>
    have hends (f : Fragment) (h : L.Rel Γ f f) : L.Rel Γ (f ++ lower.fragment ++ " AND " ++
        upper.fragment) (f ++ lower.fragment ++ " AND " ++ upper.fragment) :=
      rel_append (rel_append (rel_append h (rel_frameBound _)) (rel_text _)) (rel_frameBound _)
    cases kind <;> exact hends _ (rel_append (rel_text _) (rel_text _))

@[mono]
lemma rel_nameList (names : List String) : L.Rel Γ (nameList names) (nameList names) := by
  refine rel_paren (rel_commas (forall₂_self fun f hf => ?_))
  obtain ⟨_, _, rfl⟩ := List.mem_map.1 hf
  exact rel_ident _

@[mono]
lemma rel_elementTable {f g : Fragment} {path : String} {columns : List ElementColumn}
    (hcolumns : columns.Forall fun c => L.Rel Γ (Fragment.text c.definition) (.text c.definition))
    (h : L.Rel Γ f g) :
    L.Rel Γ (ElementTable.fragment ⟨f, path, columns⟩)
      (ElementTable.fragment ⟨g, path, columns⟩) := by
  have hc : List.Forall₂ (L.Rel Γ)
      (columns.map fun c => Fragment.ident c.name ++ (" " ++ c.definition))
      (columns.map fun c => Fragment.ident c.name ++ (" " ++ c.definition)) := by
    refine forall₂_self fun f hf => ?_
    obtain ⟨c, hc, rfl⟩ := List.mem_map.1 hf
    have hdefinition := List.forall_iff_forall_mem.1 hcolumns c hc
    exact rel_append (rel_ident _) (rel_append (rel_text _) hdefinition)
  have hpath := rel_append (rel_append h (rel_text ", ")) (rel_string path)
  exact rel_append (rel_text _)
    (rel_paren (rel_append (rel_append hpath (rel_text _)) (rel_paren (rel_commas hc))))

end FragmentLogic

end PipelineSql
