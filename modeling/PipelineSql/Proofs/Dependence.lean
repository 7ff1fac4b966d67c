import PipelineSql.Proofs.RowTexts
import PipelineSql.Proofs.Relation.Expr

/-!
# What rendering depends on

An expression is rendered against a row, but it looks up only some of its paths there: those that it
refers to, and for the size of what a lookup found also the field by which it looked up.

Main result: over two rows that agree in the references of an expression, every way to write the
expression does the same. So the list of references, by which stages are moved and queries wrapped,
leaves out nothing that is read.
-/

namespace PipelineSql

/-- Do two rows agree in what a path stands for? What a lookup found can also be counted by the
field of the row by which it looked up. -/
structure Scope.AgreeAt (σ σ' : Scope) (p : Path) : Prop where
  resolve : σ.resolve p false = σ'.resolve p false
  lookup : σ.lookup? p = σ'.lookup? p
  localField : ∀ key, (σ.lookup? p >>= fun l => l.key) = some key →
    σ.resolve key.localField false = σ'.resolve key.localField false

/-! ## Related by being the same -/

/-- Outcomes that are alike in equal values are the same. -/
lemma Outcome.Alike.eq {α : Type} {F : Error → Prop} {A : α → α → Prop}
    {x y : EStateM.Result Error Emission α} (h : Outcome.Alike F A x y)
    (hA : ∀ {a a'}, A a a' → a = a') : x = y := by
  cases h with
  | ok ha => rw [hA ha]
  | error _ => rfl

/-- Fragments of one release are related if they are the same, where only some references may be
read. -/
def FragmentLogic.reading (δ : Dialect) (V : Reference → Prop) : FragmentLogic :=
  { equal True with
    Speaks := fun d d' => d = d' ∧ d' = δ
    Visible := V
    features := fun h => .of_eq h.1
    said := fun _ _ => rfl }

namespace FragmentLogic

variable {δ : Dialect} {V : Reference → Prop} {Γ : Ctx} {σ σ' : Scope}

mutual

/-- Conditions of the same texts are the same. -/
lemma eq_of_cond : ∀ {c c' : Condition}, (reading δ V).Cond Γ c c' → c = c'
  | .constant _, _, .constant _ => rfl
  | .isNull _, _, .isNull h => congrArg _ h
  | .isNotNull _, _, .isNotNull h => congrArg _ h
  | .relation .., _, .relation h h' => congrArg₂ _ h h'
  | .among .., _, .among h hs =>
    congrArg₂ (Condition.among · · _) h (Eq.mp (congrFun₂ List.forall₂_eq_eq_eq _ _) hs)
  | .test _, _, .test h => congrArg _ h
  | .testNot _, _, .testNot h => congrArg _ h
  | .both .., _, .both ha hb => congrArg₂ _ (eq_of_cond ha) (eq_of_cond hb)
  | .all _, _, .all h => congrArg _ (eq_of_forall₂_cond h)
  | .any _, _, .any h => congrArg _ (eq_of_forall₂_cond h)
  | .none _, _, .none h => congrArg _ (eq_of_forall₂_cond h)

/-- Conditions that are the same one by one are the same. -/
lemma eq_of_forall₂_cond : ∀ {cs cs' : List Condition},
    List.Forall₂ ((reading δ V).Cond Γ) cs cs' → cs = cs'
  | [], _, .nil => rfl
  | _ :: _, _, .cons hc hcs => congrArg₂ _ (eq_of_cond hc) (eq_of_forall₂_cond hcs)

end

/-- Arrays at the same path of the same text are the same. -/
lemma eq_of_arrayRel {a a' : ArraySource} (h : (reading δ V).ArrayRel Γ a a') : a = a' := by
  cases h with
  | mk hf => rw [show _ = _ from hf]

/-- What is the same is related. -/
lemma resolvedRel_of_eq {r r' : Resolved} (h : r = r') : (reading δ V).ResolvedRel Γ r r' :=
  h ▸ Resolved.rel_self fun _ _ => rfl

/-- What is read of rows that agree in it is related. -/
lemma sightRel_of_agree (hfield : ∀ p, V (.field p) → σ.AgreeAt σ' p)
    (hdocument : V .wholeDocument → σ.documentValue δ = σ'.documentValue δ) :
    (reading δ V).SightRel Γ σ σ' where
  resolve hv := resolvedRel_of_eq (hfield _ hv).resolve
  lookup hv := (hfield _ hv).lookup
  found {p l key} hv hl hkey := by
    refine ⟨trivial, resolvedRel_of_eq ((hfield p hv).localField key ?_)⟩
    rw [(hfield p hv).lookup, hl]
    exact hkey
  document hv d d' hd := by
    rw [hd.1, hd.2]
    exact hdocument hv

end FragmentLogic

/-! ## References -/

/-- What an expression refers to is all that it reads. In environments that differ only in their
rows, where the rows agree in every path that it refers to and, if it refers to the whole document,
in the document, each way to write the expression has the same result or error, text, values and
warnings alike, whatever was emitted before. -/
theorem Expr.rendering_determined_by_references (e : Expr) (env : Env) (σ σ' : Scope)
    (hfield : ∀ p, .field p ∈ e.references → σ.AgreeAt σ' p)
    (hdocument : .wholeDocument ∈ e.references →
      σ.documentValue env.dialect = σ'.documentValue env.dialect) :
    e.value.run { env with scope := σ } = e.value.run { env with scope := σ' } ∧
    (∀ type, (e.typed type).run { env with scope := σ } =
      (e.typed type).run { env with scope := σ' }) ∧
    e.condition.run { env with scope := σ } = e.condition.run { env with scope := σ' } ∧
    e.json.run { env with scope := σ } = e.json.run { env with scope := σ' } ∧
    e.source.run { env with scope := σ } = e.source.run { env with scope := σ' } := by
  let L := RenderLogic.alike (.reading env.dialect (· ∈ e.references)) (fun _ _ => rfl)
    (fun _ => True) (fun _ => trivial) env.dataColumn
  have hextracts (type : Option JsonType) : L.Extracts type := ⟨fun _ => rfl⟩
  have hknown : L.Known e := fun n hn => ⟨fun x hx => List.mem_filterMap.2 ⟨n, hn, hx⟩,
    fun _ _ => trivial, hextracts _, fun _ _ => trivial⟩
  have hreads := RenderLogic.reads_ofExpr e hknown
  have henv : L.EnvRel env.dataColumn (some env.sight) { env with scope := σ }
      { env with scope := σ' } := by
    refine ⟨⟨rfl, rfl⟩, rfl, rfl, rfl, rfl, rfl, rfl, fun _ => trivial, ?_, env.sees_elements⟩
    rintro _ ⟨⟩
    exact FragmentLogic.sightRel_of_agree hfield hdocument
  have hsame {α : Type} {r : Render α} {A : α → α → Prop} (hA : ∀ {a a'}, A a a' → a = a')
      (hrun : L.Run (some env.sight) A r r) :
      r.run { env with scope := σ } = r.run { env with scope := σ' } := by
    funext m
    exact (hrun _ _ m ⟨henv, rfl, rfl⟩).eq hA
  exact ⟨hsame id (hreads.value _ none), fun type => hsame id (hreads.value _ (some type)),
    hsame FragmentLogic.eq_of_cond (hreads.condition _),
    hsame (fun h => Prod.ext h.1 h.2) (hreads.json _),
    hsame FragmentLogic.eq_of_arrayRel (hreads.source _)⟩

/-- The stock of an item: the number of documents that a lookup found, at the price of the item. -/
def stockValue : Expr :=
  .arith .multiply [.array .size (some (.field { path := ⟨["inv"]⟩ })) none [] none,
    .var "ROOT" (some ⟨["price"]⟩)]

/-- Items with the documents that a lookup found. -/
def lookedUpItems : Scope where
  doc := some (.column "base" "data")
  lookups := [⟨⟨["inv"]⟩, "inventory_1", some ⟨"inventory", ⟨["item"]⟩, ⟨["sku"]⟩⟩⟩]

/-- The same items with a computed field, one for each of their tags. -/
def taggedItems : Scope :=
  { lookedUpItems with
    computed := [⟨⟨["total"]⟩, Fragment.text "1", false⟩]
    unwinds := [⟨⟨["tags"]⟩, "unwind_1", none⟩] }

/-- The stock does not depend on what else the row has. -/
theorem stockValue_alike_for_tagged_items :
    stockValue.references = [.field ⟨["inv"]⟩, .field ⟨["price"]⟩] ∧
    lookedUpItems.AgreeAt taggedItems ⟨["inv"]⟩ ∧ lookedUpItems.AgreeAt taggedItems ⟨["price"]⟩ ∧
    ∀ env : Env, stockValue.value.run { env with scope := lookedUpItems } =
      stockValue.value.run { env with scope := taggedItems } := by
  have hinv : lookedUpItems.AgreeAt taggedItems ⟨["inv"]⟩ :=
    ⟨rfl, rfl, by rintro _ ⟨⟩; rfl⟩
  have hprice : lookedUpItems.AgreeAt taggedItems ⟨["price"]⟩ :=
    ⟨rfl, rfl, by rintro _ ⟨⟩⟩
  have hfield : ∀ p, .field p ∈ stockValue.references → lookedUpItems.AgreeAt taggedItems p := by
    intro p hp
    have hp : .field p ∈ [Reference.field ⟨["inv"]⟩, .field ⟨["price"]⟩] := hp
    simp only [List.mem_cons, Reference.field.injEq, List.not_mem_nil, or_false] at hp
    rcases hp with rfl | rfl
    · exact hinv
    · exact hprice
  have hdocument : .wholeDocument ∉ stockValue.references := by decide
  refine ⟨rfl, hinv, hprice, fun env => ?_⟩
  exact (stockValue.rendering_determined_by_references env _ _ hfield
    fun h => absurd h hdocument).1

end PipelineSql
