import PipelineSql.Proofs.Injection
import PipelineSql.Proofs.Relation.Alike
import PipelineSql.Proofs.WritePlacement

/-!
# Statements and releases

A statement for a release uses only what the release has. The features that a release may lack show
as keywords: a function that edits documents, a JSON type and a boolean type. They are looked for in
the text of the tokens themselves, outside quotes. Releases with the same features get the same
statements.
-/

namespace PipelineSql

/-- What a release may lack. -/
inductive Feature where
  | jsonTransform
  | jsonType
  | boolean
deriving DecidableEq, Repr

/-- Does the release have the feature? -/
def Dialect.has (d : Dialect) : Feature → Bool
  | .jsonTransform => d.hasJsonTransform
  | .jsonType => d.hasJsonType
  | .boolean => d.hasBoolean

namespace Feature

/-- The words of a text outside quotes, in upper case. -/
def words (text : String) : List (List Char) :=
  let marks := (lex text.toList).getD []
  let code := marks.map fun m => if m.zone = .code then m.char.toUpper else ' '
  (code.splitOnP (!isWordChar ·)).filter (!·.isEmpty)

/-- The words that need a feature. -/
def keywords : List (List Char × Feature) :=
  [(['J', 'S', 'O', 'N', '_', 'T', 'R', 'A', 'N', 'S', 'F', 'O', 'R', 'M'], .jsonTransform),
    (['J', 'S', 'O', 'N'], .jsonType),
    (['B', 'O', 'O', 'L', 'E', 'A', 'N'], .boolean),
    (['T', 'R', 'U', 'E'], .boolean),
    (['F', 'A', 'L', 'S', 'E'], .boolean)]

/-- The features that words need. `FORMAT JSON` says what a text holds and needs no JSON type. -/
def neededBy : List (List Char) → List Feature
  | ['F', 'O', 'R', 'M', 'A', 'T'] :: ['J', 'S', 'O', 'N'] :: rest => neededBy rest
  | word :: rest => (keywords.lookup word).toList ++ neededBy rest
  | [] => []

/-- The features that a text needs. -/
def ofText (text : String) : List Feature :=
  neededBy (words text)

end Feature

/-- The features that a token needs. Tokens other than keywords and booleans are names, numbers,
strings and placeholders. -/
def Token.features (d : Dialect) : Token → List Feature
  | .text s => Feature.ofText s
  | .bool b => Feature.ofText (d.bool b)
  | _ => []

/-! ## Words -/

lemma ofText_of_mem_windowWords {s : String} (h : s ∈ windowWords) : Feature.ofText s = [] := by
  have hall : ∀ s ∈ windowWords, Feature.ofText s = [] := by decide +kernel
  exact hall s h

lemma ofText_of_common {s : String} (h : Common s) : Feature.ofText s = [] := by
  -- The words of each text are found by computation, once it is a list of characters.
  cases h <;> rw [Feature.ofText, Feature.words, String.toList_ofList] <;> rfl

/-- What a release says needs only what it has. -/
lemma Dialect.Says.has {d : Dialect} {s : String} (h : d.Says s) :
    ∀ f ∈ Feature.ofText s, d.has f = true := by
  have hfeature {f : Feature} {s : String} (hs : Feature.ofText s = [f]) (hf : d.has f = true) :
      ∀ f ∈ Feature.ofText s, d.has f = true := by
    rw [hs]
    exact List.forall_mem_singleton.2 hf
  cases h with
  | common h =>
    rw [ofText_of_common h]
    exact List.forall_mem_nil _
  | jsonTransform h => exact hfeature (f := .jsonTransform) (by decide +kernel) h
  | json h => exact hfeature (f := .jsonType) (by decide +kernel) h
  | jsonElement h => exact hfeature (f := .jsonType) (by decide +kernel) h
  | boolean h => exact hfeature (f := .boolean) (by decide +kernel) h
  | booleanMethod h => exact hfeature (f := .boolean) (by decide +kernel) h
  | trueWord h => exact hfeature (f := .boolean) (by decide +kernel) h
  | falseWord h => exact hfeature (f := .boolean) (by decide +kernel) h

lemma Dialect.Writes.has {d : Dialect} {s : String} (h : d.Writes s) :
    ∀ f ∈ Feature.ofText s, d.has f = true := by
  cases h with
  | said h => exact h.has
  | window h =>
    rw [ofText_of_mem_windowWords h]
    exact List.forall_mem_nil _

namespace Piece

mutual

/-- The brackets need no features. -/
lemma features_tokens {d : Dialect} : ∀ p : Piece, (∀ s ∈ p.texts, d.Writes s) →
    ∀ t ∈ p.tokens, ∀ f ∈ t.features d, d.has f = true
  | .token t, h => by
    refine List.forall_mem_singleton.2 ?_
    cases t with
    | text s => exact (h s List.mem_cons_self).has
    | bool b => exact (d.says_bool b).has
    | _ => exact List.forall_mem_nil _
  | .group b body, h => by
    have hbracket : ∀ t ∈ b.opening ++ b.closing, t.features d = [] := by
      cases b with
      | round =>
        exact List.forall_mem_cons.2 ⟨(by decide +kernel : Feature.ofText "(" = []),
          List.forall_mem_singleton.2 (by decide +kernel : Feature.ofText ")" = [])⟩
      | cases =>
        exact List.forall_mem_cons.2 ⟨ofText_of_common .choice,
          List.forall_mem_singleton.2 (ofText_of_common .choiceEnd)⟩
      | _ => exact List.forall_mem_nil _
    obtain ⟨hopening, hclosing⟩ := List.forall_mem_append.1 hbracket
    refine List.forall_mem_append.2 ⟨List.forall_mem_append.2 ⟨fun t ht => ?_, ?_⟩, fun t ht => ?_⟩
    · rw [hopening t ht]
      exact List.forall_mem_nil _
    · exact features_flatten body h
    · rw [hclosing t ht]
      exact List.forall_mem_nil _

lemma features_flatten {d : Dialect} : ∀ ps : List Piece, (∀ s ∈ allTexts ps, d.Writes s) →
    ∀ t ∈ flatten ps, ∀ f ∈ t.features d, d.has f = true
  | [], _ => List.forall_mem_nil _
  | p :: ps, h => by
    obtain ⟨hp, hps⟩ := List.forall_mem_append.1 h
    exact List.forall_mem_append.2 ⟨features_tokens p hp, features_flatten ps hps⟩

end

end Piece

/-! ## What is said for a release -/

/-- Fragments are related if they are the same, and the release writes all their texts. -/
def FragmentLogic.saying (d : Dialect) : FragmentLogic where
  Rel _ f g := f = g ∧ f.Spells d.Writes
  Stored _ := True
  Speaks e e' := e = d ∧ e' = d
  Lists _ := True
  features := by
    rintro _ _ ⟨rfl, rfl⟩
    exact .refl _
  mono _ h := h
  nil := ⟨rfl, Fragment.spells_nil⟩
  append := by
    rintro _ _ _ _ _ ⟨rfl, h⟩ ⟨rfl, h'⟩
    exact ⟨rfl, h.append h'⟩
  plain := by
    intro _ t ht
    refine ⟨rfl, Fragment.spells_token fun s hs => ?_⟩
    rw [hs] at ht
    cases ht
  text _ hs := ⟨rfl, Fragment.spells_text (.said (.common hs))⟩
  said := by
    rintro _ _ _ s ⟨rfl, rfl⟩ hs
    exact ⟨rfl, Fragment.spells_text (.said hs)⟩
  column _ := ⟨rfl, Fragment.spells_token nofun⟩
  table _ := ⟨rfl, Fragment.spells_token nofun⟩
  group := by
    rintro _ b f _ - - - ⟨rfl, h⟩
    exact ⟨rfl, h.group⟩
  name := by
    rintro _ _ _ _ ⟨rfl, -⟩ -
    exact Iff.rfl

lemma FragmentLogic.naming_saying (d : Dialect) : (saying d).Naming := by
  rintro _ subqueries f _ - ⟨rfl, h⟩
  exact ⟨rfl, h.group⟩

lemma FragmentLogic.windowing_saying (d : Dialect) : (saying d).Windowing :=
  fun h => ⟨rfl, Fragment.spells_text (.window h)⟩

/-- Do the expressions of the stage declare no types, at any depth? -/
def Stage.Undeclared (s : Stage) : Prop :=
  ∀ n ∈ s.nodes, ∀ e ∈ n.values ++ n.outputs.map Prod.snd, ∀ m ∈ e.nodes, m.declared? = none

namespace Pipeline

open Stage

/-- The passes declare no types. -/
lemma kept_undeclared : Kept Undeclared := by
  refine Kept.nodes ⟨fun l r hl hr => ?_, fun _ => List.forall_mem_nil _,
    fun _ => List.forall_mem_nil _, fun _ _ _ h => h⟩
  have hl := List.forall_mem_singleton.1 hl
  have hr := List.forall_mem_singleton.1 hr
  refine List.forall_mem_singleton.2 ?_
  fun_cases conjoin l r with
  | case1 operands =>
    refine Expr.forall_nodes.2 ⟨rfl, List.forall_mem_append.2 ⟨(Expr.forall_nodes.1 hl).2, ?_⟩⟩
    exact List.forall_mem_singleton.2 hr
  | case2 =>
    refine Expr.forall_nodes.2 ⟨rfl, List.forall_mem_cons.2 ⟨hl, ?_⟩⟩
    exact List.forall_mem_singleton.2 hr

/-- The texts of a compiled statement are written for the release. -/
lemma spells_compilation {p : Pipeline} {t : Target} {o : Options} {s : Statement} {e : Emission}
    (h : ∀ s ∈ p.stages, s.Undeclared) (hs : p.compilation t o = .ok s e) (d : Dialect) :
    (s.fragment d).Spells o.dialect.Writes := by
  have htypes : ∀ n ∈ Stage.nodesOfList (splitTerminal p.stages).1,
      ∀ e ∈ n.values ++ n.outputs.map Prod.snd, ∀ m ∈ e.nodes,
        (FragmentLogic.saying o.dialect).Extracts m.declared? := by
    intro n hn e he m hm
    rw [Stage.nodesOfList_eq] at hn
    obtain ⟨w, hw, hn⟩ := List.mem_flatMap.1 hn
    rw [h w ((splitTerminal_sublist p.stages).subset hw) n hn e he m hm]
    infer_instance
  have hrel := statementRel_compilation (L := .saying o.dialect)
    (fun _ _ => ⟨rfl, Fragment.spells_token nofun⟩) hs ⟨rfl, rfl⟩ (fun _ => trivial)
    (FragmentLogic.windowing_saying _) (fun _ => trivial) htypes (fun _ _ _ _ => trivial)
    (fun _ _ b _ _ _ => RenderLogic.admits_of_lists (fun _ => trivial) _ b)
  exact (hrel.layout (FragmentLogic.naming_saying _) d).2

end Pipeline

/-! ## Releases with the same features -/

/-- The releases lay a statement out alike. -/
lemma Statement.fragment_eq (d d' : Dialect) (s : Statement) : s.fragment d = s.fragment d' := by
  cases s with
  | query q => exact q.fragment_eq d d'
  | insert target columns q => simp only [fragment, q.fragment_eq d d']
  | merge m => simp only [fragment, m.source.fragment_eq d d']

namespace Token

variable {d d' : Dialect} (h : d.Alike d') (layout : Layout)

include h

lemma print_eq (t : Token) : t.print d layout = t.print d' layout := by
  cases t with
  | bool b => exact h.bool b
  | table schema name => cases schema <;> rfl
  | _ => rfl

lemma printAll_eq (ts : List Token) : printAll d layout ts = printAll d' layout ts := by
  unfold printAll
  rw [List.map_congr_left fun t _ => print_eq h layout t]

end Token

section Alike

variable {p : Pipeline} {t : Target} {o : Options} {d : Dialect} (h : o.dialect.Alike d)

include h

/-- Runs for releases with the same features end alike. -/
lemma outcome_alike (q : Pipeline) : Outcome.Alike (fun _ => True)
    (RenderLogic.StatementRel .same) (q.compilation t o)
    (q.compilation t { o with dialect := d }) := by
  have hextracts := FragmentLogic.extracts_all (L := .same) (Dialect.Alike.refl .oracle26ai) rfl
  exact alike_compilation (L := .same) (fun _ _ => rfl) (fun _ => trivial) h rfl rfl trivial
    (fun _ _ => ⟨fun _ _ => trivial, fun _ _ _ _ => hextracts _, fun _ _ => trivial,
      FragmentLogic.windowing_equal, fun _ => trivial, trivial, nofun, fun _ => trivial⟩)
    (fun _ _ _ _ => trivial) (fun _ _ _ _ => trivial)
    (fun _ _ b _ _ _ => RenderLogic.admits_of_lists (fun _ => trivial) _ b)

lemma translate_alike : translate p t o = translate p t { o with dialect := d } := by
  -- The release matters only after the checks and the passes.
  have hadmitted : admitted p t o = admitted p t { o with dialect := d } := rfl
  unfold translate
  rw [hadmitted]
  congr 1
  funext q
  have houtcome := outcome_alike (t := t) h q
  generalize q.compilation t o = x, q.compilation t { o with dialect := d } = x' at houtcome ⊢
  cases houtcome with
  | @ok s s' e hs =>
    have hlayout := hs.layout FragmentLogic.naming_equal
    dsimp only
    rw [show s.fragment o.dialect = s'.fragment o.dialect from hlayout _, s'.fragment_eq _ d]
  | error _ => rfl

lemma compile_alike : (compile p t o).map (fun c => { c with dialect := d }) =
    compile p t { o with dialect := d } := by
  unfold compile
  rw [← translate_alike h]
  cases translate p t o with
  | error x => rfl
  | ok r =>
    refine congrArg Except.ok ?_
    simp only [Rendition.print, Token.printAll_eq h]
    rfl

end Alike

/-- The statement of a pipeline that is read uses only features of its release, and so none of those
that the oldest release lacks. The newer releases get the same text with the same values and
warnings, or the same error. -/
theorem statement_within_release {j : Json} {p : Pipeline} (hp : parsePipeline j = .ok p.stages)
    (t : Target) (o : Options) :
    (∀ r, translate p t o = .ok r →
      (∀ token ∈ r.tokens, ∀ f ∈ token.features o.dialect, o.dialect.has f = true) ∧
      (o.dialect = .oracle19c → ∀ token ∈ r.tokens, token.features o.dialect = [])) ∧
    (compile p t { o with dialect := .oracle23ai }).map (fun c =>
      { c with dialect := .oracle26ai }) = compile p t { o with dialect := .oracle26ai } := by
  have hparsed := (Phrase.throughout_ofJson Phrase.inherited_spells j).self.stages.value hp
  have hundeclared : ∀ s ∈ p.stages, s.Undeclared := fun s hs n hn => (hparsed s hs n hn).undeclared
  refine ⟨fun r hr => ?_, ?_⟩
  · have hfeatures :
        ∀ token ∈ r.tokens, ∀ f ∈ token.features o.dialect, o.dialect.has f = true := by
      obtain ⟨q, s, e, hq, hs, rfl⟩ := translate_eq_ok_iff.1 hr
      have hadmitted := Pipeline.kept_undeclared.admitted hundeclared hq
      refine Token.forall_numberFrom e.values 1 (fun _ => List.forall_mem_nil _) ?_
      exact Piece.features_flatten _ (Pipeline.spells_compilation hadmitted hs o.dialect)
    refine ⟨hfeatures, fun ho token htoken => List.eq_nil_iff_forall_not_mem.2 fun f hf => ?_⟩
    -- The oldest release has none of the features.
    have hlacks : o.dialect.has f = false := by
      rw [ho]
      cases f <;> rfl
    rw [hfeatures token htoken f hf] at hlacks
    cases hlacks
  · exact compile_alike (o := { o with dialect := .oracle23ai }) ⟨rfl, rfl, rfl, nofun⟩

/-- The paid items of documents, with a new field. -/
def paidItemsJson : Json :=
  .arr [.obj [("$unwind", .str "$items")],
    .obj [("$addFields", .obj [("seen", .bool true)])],
    .obj [("$match", .obj [("paid", .bool true)])]]

def paidItems : Pipeline :=
  { stages := [.unwind { path := ⟨["items"]⟩, index := none, preserve := false },
      .addFields [(⟨["seen"]⟩, .lit (.bool true))],
      .filter (.compare .eq (.field { path := ⟨["paid"]⟩ }) (.lit (.bool true)))] }

/-- The collection of orders. -/
def Target.orders : Target :=
  { collection := "orders" }

/-- A pipeline that uses all features where they are there, and none of them elsewhere. -/
theorem paidItems_within_releases :
    parsePipeline paidItemsJson = .ok paidItems.stages ∧
    (∃ r, translate paidItems .orders { dialect := .oracle19c } = .ok r ∧
      ∀ token ∈ r.tokens, token.features .oracle19c = []) ∧
    ∃ r, translate paidItems .orders { dialect := .oracle26ai } = .ok r ∧
      r.tokens.flatMap (Token.features .oracle26ai) =
        [.jsonTransform, .boolean, .jsonType, .boolean, .boolean] ∧
      ∀ token ∈ r.tokens, ∀ f ∈ token.features .oracle26ai, Dialect.oracle26ai.has f = true := by
  have hparse : parsePipeline paidItemsJson = .ok paidItems.stages := rfl
  have hold := (statement_within_release hparse .orders { dialect := .oracle19c }).1
  have hnew := (statement_within_release hparse .orders { dialect := .oracle26ai }).1
  have hfirst : (translate paidItems .orders { dialect := .oracle19c }).toBool = true := by
    decide +kernel
  have hsecond : ((translate paidItems .orders { dialect := .oracle26ai }).toOption.any fun r =>
      r.tokens.flatMap (Token.features .oracle26ai) =
        [.jsonTransform, .boolean, .jsonType, .boolean, .boolean]) = true := by
    decide +kernel
  refine ⟨hparse, ?_, ?_⟩
  · cases h : translate paidItems .orders { dialect := .oracle19c } with
    | error x =>
      rw [h] at hfirst
      cases hfirst
    | ok r => exact ⟨r, rfl, (hold r h).2 rfl⟩
  · cases h : translate paidItems .orders { dialect := .oracle26ai } with
    | error x =>
      rw [h] at hsecond
      cases hsecond
    | ok r =>
      rw [h] at hsecond
      exact ⟨r, rfl, of_decide_eq_true hsecond, (hnew r h).1⟩

end PipelineSql
