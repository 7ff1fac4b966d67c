import Mathlib.Data.String.Basic
import Mathlib.Order.BooleanAlgebra.Defs
import Mathlib.Tactic.Lemma
import PipelineSql.Proofs.Document
import PipelineSql.Render.Basic

/-!
# The truth of conditions

SQL has three truth values: a comparison with null is unknown, and so is all that hangs on it. A
condition is evaluated on a row that holds one JSON document. Null stands for a field that is absent
or null. Numbers have the order that a function of them into a linear order gives.

The empty string is a value like any other. A database may read it as null: there all that is shown
of the truth of conditions holds where no empty text is compared (`Condition.NoEmptyText`).
-/

namespace PipelineSql

/-! ## Truth values -/

/-- A truth value of SQL: true, false, or unknown if absent. -/
abbrev Truth := Option Bool

namespace Truth

/-- Unknown unless one side decides. -/
def both : Truth → Truth → Truth
  | some false, _ | _, some false => some false
  | some true, some true => some true
  | _, _ => none

/-- Unknown stays unknown. -/
def negate : Truth → Truth :=
  Option.map not

/-- Unknown unless one side decides. -/
def either : Truth → Truth → Truth
  | some true, _ | _, some true => some true
  | some false, some false => some false
  | _, _ => none

/-- All of the values. -/
def all (ts : List Truth) : Truth :=
  ts.foldr both (some true)

/-- Any of the values. -/
def any (ts : List Truth) : Truth :=
  ts.foldr either (some false)

/-- The value knows no more than the classical one: it is that or unknown. -/
def Below (t : Truth) (b : Bool) : Prop :=
  ∀ b' ∈ t, b' = b

variable {t t' : Truth} {b b' : Bool}

/-- What is known is no more than itself. -/
lemma below_some (b : Bool) : Below (some b) b := by
  rintro _ ⟨⟩
  rfl

/-- The unknown knows no more than anything. -/
lemma below_none (b : Bool) : Below none b := by
  intro b' h
  cases h

@[simp]
lemma all_nil : all [] = some true := rfl

@[simp]
lemma all_cons (t : Truth) (ts : List Truth) : all (t :: ts) = both t (all ts) := rfl

@[simp]
lemma any_nil : any [] = some false := rfl

@[simp]
lemma any_cons (t : Truth) (ts : List Truth) : any (t :: ts) = either t (any ts) := rfl

@[simp]
lemma true_either (t : Truth) : either (some true) t = some true := by
  rcases t with _ | _ | _ <;> rfl

@[simp]
lemma false_either (t : Truth) : either (some false) t = t := by
  rcases t with _ | _ | _ <;> rfl

@[simp]
lemma either_false (t : Truth) : either t (some false) = t := by
  rcases t with _ | _ | _ <;> rfl

@[simp]
lemma either_true (t : Truth) : either t (some true) = some true := by
  rcases t with _ | _ | _ <;> rfl

@[simp]
lemma true_both (t : Truth) : both (some true) t = t := by
  rcases t with _ | _ | _ <;> rfl

@[simp]
lemma false_both (t : Truth) : both (some false) t = some false := by
  rcases t with _ | _ | _ <;> rfl

@[simp]
lemma both_true (t : Truth) : both t (some true) = t := by
  rcases t with _ | _ | _ <;> rfl

/-- Where all is known, any is the classical one. -/
lemma any_map_some {β : Type} (p : β → Bool) (xs : List β) :
    any (xs.map fun x => some (p x)) = some (xs.any p) := by
  induction xs with
  | nil => rfl
  | cons x xs ih =>
    rw [List.map_cons, any_cons, ih, List.any_cons]
    cases p x <;> simp

/-- Where nothing is known, any is unknown. -/
lemma any_map_none {β : Type} {xs : List β} (h : xs ≠ []) : any (xs.map fun _ => none) = none := by
  induction xs with
  | nil => exact absurd rfl h
  | cons x xs ih =>
    rw [List.map_cons, any_cons]
    cases xs with
    | nil => rfl
    | cons y ys =>
      rw [ih (List.cons_ne_nil y ys)]
      rfl

lemma both_eq_true : both t t' = some true ↔ t = some true ∧ t' = some true := by
  rcases t with _ | _ | _ <;> rcases t' with _ | _ | _ <;> simp [both]

lemma either_eq_true : either t t' = some true ↔ t = some true ∨ t' = some true := by
  rcases t with _ | _ | _ <;> rcases t' with _ | _ | _ <;> simp [either]

/-- A conjunction knows no more than the classical one. -/
lemma Below.both (h : Below t b) (h' : Below t' b') : Below (both t t') (b && b') := by
  rcases t with _ | _ | _ <;> rcases t' with _ | _ | _ <;> simp_all [Below, Truth.both]

/-- A disjunction knows no more than the classical one. -/
lemma Below.either (h : Below t b) (h' : Below t' b') : Below (either t t') (b || b') := by
  rcases t with _ | _ | _ <;> rcases t' with _ | _ | _ <;> simp_all [Below, Truth.either]

/-- A negation knows no more than the classical one. -/
lemma Below.negate (h : Below t b) : Below (negate t) (!b) := by
  rcases t with _ | _ | _ <;> simp_all [Below, Truth.negate]

end Truth

/-! ## Values -/

/-- A scalar value. Null stands for what is absent. -/
inductive Scalar (α : Type) where
  | null
  | number (a : α)
  | text (s : String)
  | bool (b : Bool)
deriving DecidableEq

/-- The comparisons that are not about membership. -/
inductive OrderOp where
  | eq
  | ne
  | gt
  | gte
  | lt
  | lte
deriving DecidableEq

namespace OrderOp

/-- As a comparison. -/
def comparison : OrderOp → Comparison
  | .eq => .eq
  | .ne => .ne
  | .gt => .gt
  | .gte => .gte
  | .lt => .lt
  | .lte => .lte

/-- The comparison, unless it is about membership. -/
def ofComparison? : Comparison → Option OrderOp
  | .eq => some .eq
  | .ne => some .ne
  | .gt => some .gt
  | .gte => some .gte
  | .lt => some .lt
  | .lte => some .lte
  | .isIn | .notIn => none

@[simp]
lemma ofComparison?_comparison (op : OrderOp) : ofComparison? op.comparison = some op := by
  cases op <;> rfl

/-- Does the comparison hold in an order? -/
def holds {β : Type} [LinearOrder β] : OrderOp → β → β → Bool
  | .eq, a, b => a = b
  | .ne, a, b => a ≠ b
  | .gt, a, b => b < a
  | .gte, a, b => b ≤ a
  | .lt, a, b => a < b
  | .lte, a, b => a ≤ b

end OrderOp

namespace Scalar

variable {α : Type}

/-- Is the value null? -/
def isNull : Scalar α → Bool
  | .null => true
  | _ => false

/-- A comparison of SQL: unknown with null, and none between values of different types. -/
def compare? [LinearOrder α] (op : OrderOp) : Scalar α → Scalar α → Option Truth
  | .null, _ | _, .null => some none
  | .number a, .number b => some (some (op.holds a b))
  | .text s, .text t => some (some (op.holds s t))
  | .bool a, .bool b => some (some (op.holds a b))
  | _, _ => none

/-- The text of a boolean. -/
def boolText (b : Bool) : String :=
  if b then "true" else "false"

/-- A boolean of a release: text where there is no type for it. -/
def ofBool (d : Dialect) (b : Bool) : Scalar α :=
  if d.hasBoolean then .bool b else .text (boolText b)

/-- The scalar that a literal denotes; an array denotes none. -/
def ofLiteral? (num : Number → α) : Literal → Option (Scalar α)
  | .null => some .null
  | .bool b => some (.bool b)
  | .int n => some (.number (num (.int n)))
  | .double x => some (.number (num (.float x)))
  | .string s => some (.text s)
  | .array _ => none

/-- The scalar of a value that may be absent; arrays and objects are none. -/
def ofJson? (num : Number → α) : Option Json → Option (Scalar α)
  | none | some .null => some .null
  | some (.bool b) => some (.bool b)
  | some (.num n) => some (.number (num n))
  | some (.str s) => some (.text s)
  | some (.arr _) | some (.obj _) => none

/-- How a release represents a scalar. -/
def inSql (d : Dialect) : Scalar α → Scalar α
  | .bool b => ofBool d b
  | v => v

end Scalar

/-! ## Evaluation -/

/-- A row that holds a document, and what a statement is evaluated with. -/
structure Row (α : Type) where
  /-- The alias of the row source. -/
  source : String
  /-- The column of the document. -/
  column : String
  doc : Json
  dialect : Dialect
  /-- The values behind bind slots. -/
  values : List Literal
  /-- The order of numbers. -/
  num : Number → α

/-- The steps of dot notation with the item method at their end. -/
def Fragment.dotted? : Fragment → Option (List String × String)
  | [.token (.text method)] => some ([], method)
  | .token (.step s) :: rest => (Fragment.dotted? rest).map fun (steps, method) => (s :: steps, method)
  | _ => none

namespace Row

variable {α : Type} (ρ : Row α)

/-- What an item method extracts: a value of its type, and null if there is none. -/
def extract? (method : String) (v : Option Json) : Option (Scalar α) :=
  if method = ".string()" then
    match v with
    | some (.str s) => some (.text s)
    | some (.bool b) => some (.text (Scalar.boolText b))
    | some (.num n) => some (.text (Json.num n).print)
    | _ => some .null
  else if method = ".number()" then
    match v with
    | some (.num n) => some (.number (ρ.num n))
    | _ => some .null
  else if method = ".boolean()" then
    match v with
    | some (.bool b) => some (.bool b)
    | _ => some .null
  else none

/-- The value of a fragment: a constant, a bound value, or a field of the document. -/
def value? : Fragment → Option (Scalar α)
  | [.token (.bind slot)] => do
    let v ← Scalar.ofLiteral? ρ.num (← ρ.values[slot]?)
    some (v.inSql ρ.dialect)
  | [.token .null] => some .null
  | [.token (.int n)] => some (.number (ρ.num (.int n)))
  | [.token (.float x)] => some (.number (ρ.num (.float x)))
  | [.token (.string s)] => some (.text s)
  | [.token (.bool b)] => some (.ofBool ρ.dialect b)
  | .token (.column source column) :: rest =>
    if source = ρ.source ∧ column = ρ.column then do
      let (steps, method) ← Fragment.dotted? rest
      ρ.extract? method (ρ.doc.at? steps)
    else none
  | _ => none

end Row

variable {α : Type} [LinearOrder α]

/-- Is a value among others? -/
def Scalar.among? (v : Scalar α) (ws : List (Scalar α)) : Option Truth :=
  (ws.mapM (Scalar.compare? .eq v)).map Truth.any

namespace Condition

mutual

/-- The truth of a condition by the values of its texts; none if it is not one of the conditions
that are evaluated here. -/
def truth? (value? : Fragment → Option (Scalar α)) : Condition → Option Truth
  | .constant b => some (some b)
  | .isNull f => do some (some (← value? f).isNull)
  | .isNotNull f => do some (some !(← value? f).isNull)
  | .relation op l r => do
    Scalar.compare? (← OrderOp.ofComparison? op) (← value? l) (← value? r)
  | .among f fs negated => do
    let t ← (← value? f).among? (← fs.mapM value?)
    some (if negated then t.negate else t)
  | .test _ | .testNot _ => Option.none
  | .both c d => do some (.both (← truth? value? c) (← truth? value? d))
  | .all cs => do some (.all (← truths? value? cs))
  | .any cs => do some (.any (← truths? value? cs))
  | .none cs => do some (.negate (.any (← truths? value? cs)))

/-- The truth of conditions. -/
def truths? (value? : Fragment → Option (Scalar α)) : List Condition → Option (List Truth)
  | [] => some []
  | c :: cs => do some ((← truth? value? c) :: (← truths? value? cs))

end

/-! ## The empty text -/

mutual

/-- The texts whose values a condition compares. -/
def operands : Condition → List Fragment
  | .constant _ | .test _ | .testNot _ => []
  | .isNull f | .isNotNull f => [f]
  | .relation _ l r => [l, r]
  | .among f fs _ => f :: fs
  | .both c d => c.operands ++ d.operands
  | .all cs | .any cs | .none cs => operandsOfList cs

/-- The texts whose values conditions compare. -/
def operandsOfList : List Condition → List Fragment
  | [] => []
  | c :: cs => c.operands ++ operandsOfList cs

end

section Congr

variable {u v : Fragment → Option (Scalar α)}

omit [LinearOrder α] in
lemma mapM_congr {fs : List Fragment} (h : ∀ f ∈ fs, u f = v f) : fs.mapM u = fs.mapM v := by
  induction fs with
  | nil => rfl
  | cons f fs ih =>
    obtain ⟨hf, hfs⟩ := List.forall_mem_cons.1 h
    rw [List.mapM_cons, List.mapM_cons, hf, ih hfs]

mutual

/-- The truth of a condition depends on the values of what it compares alone. -/
lemma truth?_congr : ∀ c : Condition, (∀ f ∈ c.operands, u f = v f) → c.truth? u = c.truth? v
  | .constant _, _ | .test _, _ | .testNot _, _ => rfl
  | .isNull f, h | .isNotNull f, h => by rw [truth?, truth?, h f List.mem_cons_self]
  | .relation _ l r, h => by
    rw [truth?, truth?, h l List.mem_cons_self, h r (List.mem_cons_of_mem _ List.mem_cons_self)]
  | .among f fs _, h => by
    obtain ⟨hf, hfs⟩ := List.forall_mem_cons.1 h
    rw [truth?, truth?, hf, mapM_congr hfs]
  | .both c d, h => by
    obtain ⟨hc, hd⟩ := List.forall_mem_append.1 h
    rw [truth?, truth?, truth?_congr c hc, truth?_congr d hd]
  | .all cs, h | .any cs, h | .none cs, h => by rw [truth?, truth?, truths?_congr cs h]

lemma truths?_congr : ∀ cs : List Condition, (∀ f ∈ operandsOfList cs, u f = v f) →
    truths? u cs = truths? v cs
  | [], _ => rfl
  | c :: cs, h => by
    obtain ⟨hc, hcs⟩ := List.forall_mem_append.1 h
    rw [truths?, truths?, truth?_congr c hc, truths?_congr cs hcs]

end

end Congr

/-- What is assumed where a database reads the empty text as null: no text that the condition
compares is empty. -/
def NoEmptyText (value? : Fragment → Option (Scalar α)) (c : Condition) : Prop :=
  ∀ f ∈ c.operands, value? f ≠ some (.text "")

/-- The value where the empty text is read as null. -/
def emptyAsNull : Scalar α → Scalar α
  | .text s => if s = "" then .null else .text s
  | v => v

/-- On that assumption the condition has the same truth, whether the empty text is a value of its
own or null. -/
lemma truth?_emptyAsNull {value? : Fragment → Option (Scalar α)} {c : Condition}
    (h : c.NoEmptyText value?) :
    (c.truth? fun f => (value? f).map emptyAsNull) = c.truth? value? := by
  refine truth?_congr c fun f hf => ?_
  have hne := h f hf
  cases hv : value? f with
  | none => rfl
  | some w =>
    cases w with
    | text s =>
      have hs : s ≠ "" := by
        rintro rfl
        exact hne hv
      simp [emptyAsNull, hs]
    | _ => rfl

end Condition

end PipelineSql
