import PipelineSql.Sql.Fragment
import Mathlib.Data.List.Basic

/-!
# Infix operators and their precedence

What stands outside all brackets of a fragment is read the way the database reads it: products bind
tighter than sums and concatenations, and operators of one precedence group to the left. A fragment
with no operator outside its brackets keeps together wherever it is put.
-/

namespace PipelineSql

/-- An infix operator of SQL that computes a value. -/
inductive Sign where
  | plus
  | minus
  | times
  | divide
  | concat
deriving DecidableEq, Repr

namespace Sign

/-- Does the operator bind tighter than the others? -/
def tight : Sign → Bool
  | times | divide => true
  | plus | minus | concat => false

/-- How the operator is written. -/
def text : Sign → String
  | plus => "+"
  | minus => "-"
  | times => "*"
  | divide => "/"
  | concat => "||"

/-- The operator of one character. -/
def ofChar? : Char → Option Sign
  | '+' => some plus
  | '-' => some minus
  | '*' => some times
  | '/' => some divide
  | _ => none

end Sign

/-- What stands outside all brackets: an operator, or what belongs to an operand. -/
inductive Atom where
  | sign (s : Sign)
  | char (c : Char)
  | piece (p : Piece)

namespace Atom

/-- The operator, if it is one. -/
def sign? : Atom → Option Sign
  | sign s => some s
  | _ => none

/-- The atoms of text that stands for itself, `depth` brackets deep and maybe inside a string.
Blanks outside strings separate and are left out. -/
def ofChars : (quoted : Bool) → (depth : Nat) → List Char → List Atom
  | _, _, [] => []
  | true, depth, c :: cs => char c :: ofChars (c != '\'') depth cs
  | false, 0, '|' :: '|' :: cs => sign .concat :: ofChars false 0 cs
  | false, depth, c :: cs =>
    if c = '\'' then char c :: ofChars true depth cs
    else if c = '(' then char c :: ofChars false (depth + 1) cs
    else if c = ')' then char c :: ofChars false (depth - 1) cs
    else if c = ' ' then ofChars false depth cs
    else
      match Sign.ofChar? c, depth with
      | some s, 0 => sign s :: ofChars false 0 cs
      | _, depth => char c :: ofChars false depth cs

/-- The atoms of a piece. Numbers, strings, names and placeholders are one atom, and so is all that
stands in brackets. -/
def ofPiece : Piece → List Atom
  | .token (.text s) => ofChars false 0 s.toList
  | p => [piece p]

end Atom

namespace Fragment

/-- What stands outside all brackets of a fragment. -/
def atoms (f : Fragment) : List Atom :=
  f.flatMap Atom.ofPiece

/-- The operators outside all brackets of a fragment. -/
def signs (f : Fragment) : List Sign :=
  f.atoms.filterMap Atom.sign?

/-- Does the fragment keep together as an operand, having no operator outside its brackets? -/
def Delimited (f : Fragment) : Prop :=
  f.signs = []

instance (f : Fragment) : Decidable f.Delimited :=
  inferInstanceAs (Decidable (f.signs = []))

section Delimited

variable {f g : Fragment}

lemma atoms_append : (f ++ g).atoms = f.atoms ++ g.atoms :=
  List.flatMap_append

@[simp]
lemma delimited_append : (f ++ g).Delimited ↔ f.Delimited ∧ g.Delimited := by
  unfold Delimited signs
  rw [atoms_append, List.filterMap_append, List.append_eq_nil_iff]

@[simp]
lemma delimited_nil : Delimited [] := rfl

/-- What stands in brackets, or between `CASE` and `END`, keeps together. -/
@[simp]
lemma delimited_group {b : Bracket} {body : List Piece} : Delimited [.group b body] := rfl

@[simp]
lemma delimited_paren : (paren f).Delimited := rfl

@[simp]
lemma delimited_subquery {sources : List RowSource} : (subquery sources f).Delimited := rfl

@[simp]
lemma delimited_cases {branches : List (Fragment × Fragment)} {otherwise : Option Fragment} :
    (cases branches otherwise).Delimited := rfl

@[simp]
lemma delimited_string {s : String} : (string s).Delimited := rfl

@[simp]
lemma delimited_column {source name : String} : (column source name).Delimited := rfl

@[simp]
lemma delimited_ident {name : String} : (ident name).Delimited := rfl

@[simp]
lemma delimited_null : null.Delimited := rfl

lemma delimited_call {name : String} {args : List Fragment}
    (h : (text name).Delimited) : (call name args).Delimited :=
  delimited_append.2 ⟨h, delimited_paren⟩

/-- An operand has no operator among its atoms. -/
lemma sign_notMem_atoms (h : f.Delimited) (s : Sign) : Atom.sign s ∉ f.atoms := by
  intro hs
  have hmem : s ∈ f.signs := List.mem_filterMap.2 ⟨_, hs, rfl⟩
  rw [h] at hmem
  exact List.not_mem_nil hmem

lemma delimited_of_sign_notMem (h : ∀ s, Atom.sign s ∉ f.atoms) : f.Delimited := by
  refine List.filterMap_eq_nil_iff.2 fun a ha => ?_
  cases a with
  | sign s => exact absurd ha (h s)
  | char c => rfl
  | piece p => rfl

end Delimited

end Fragment

/-- Operands joined by operators. -/
inductive OperatorTree where
  | operand (atoms : List Atom)
  | node (s : Sign) (left right : OperatorTree)

namespace OperatorTree

/-- The operands from left to right. -/
def operands : OperatorTree → List (List Atom)
  | .operand atoms => [atoms]
  | .node _ left right => left.operands ++ right.operands

/-- One operator between operands, grouped to the left. -/
def chain (s : Sign) : List (List Atom) → OperatorTree
  | [] => .operand []
  | first :: rest => rest.foldl (fun t atoms => .node s t (.operand atoms)) (.operand first)

/-- The operands of a chain are those that it joins. -/
lemma operands_chain {s : Sign} {first : List Atom} {rest : List (List Atom)} :
    (chain s (first :: rest)).operands = first :: rest := by
  have h (t : OperatorTree) :
      (rest.foldl (fun t atoms => .node s t (.operand atoms)) t).operands =
        t.operands ++ rest := by
    induction rest generalizing t with
    | nil => simp
    | cons atoms rest ih => simp [List.foldl_cons, ih, operands]
  exact h _

end OperatorTree

/-- What has been read of a fragment: a sum and a product that wait for their right operands, each
with its operator, and the operand that is being read. -/
structure Parsing where
  sum : Option (OperatorTree × Sign) := none
  product : Option (OperatorTree × Sign) := none
  operand : List Atom := []

namespace Parsing

/-- A tree with a right operand, or that operand alone. -/
def attach (right : OperatorTree) : Option (OperatorTree × Sign) → OperatorTree
  | none => right
  | some (left, s) => .node s left right

/-- The product that has been read. -/
def factors (p : Parsing) : OperatorTree :=
  attach (.operand p.operand) p.product

/-- All that has been read. -/
def tree (p : Parsing) : OperatorTree :=
  attach p.factors p.sum

/-- Reads an atom. An operator ends the operand before it; one that does not bind tight also ends
the product. -/
def step (p : Parsing) : Atom → Parsing
  | .sign s =>
    if s.tight then { p with product := some (p.factors, s), operand := [] }
    else { sum := some (p.tree, s) }
  | a => { p with operand := p.operand ++ [a] }

end Parsing

/-- The operands of a fragment, grouped by the precedence of the operators between them. -/
def Fragment.parse (f : Fragment) : OperatorTree :=
  (f.atoms.foldl Parsing.step {}).tree

namespace Parsing

variable {p : Parsing}

lemma step_of_tight {s : Sign} (h : s.tight = true) :
    p.step (.sign s) = { p with product := some (p.factors, s), operand := [] } :=
  if_pos h

lemma step_of_loose {s : Sign} (h : s.tight = false) :
    p.step (.sign s) = { sum := some (p.tree, s) } :=
  if_neg (by simp [h])

/-- Reading what is no operator only adds to the operand. -/
lemma foldl_step_operand {as : List Atom} (h : ∀ s, Atom.sign s ∉ as) :
    as.foldl step p = { p with operand := p.operand ++ as } := by
  induction as generalizing p with
  | nil => simp
  | cons a as ih =>
    have has : ∀ s, Atom.sign s ∉ as := fun s hs => h s (List.mem_cons_of_mem _ hs)
    cases a with
    | sign s => exact absurd List.mem_cons_self (h s)
    | char c => simp [List.foldl_cons, step, ih has]
    | piece q => simp [List.foldl_cons, step, ih has]

/-- Just after an operator, with nothing but the tree to its left read. -/
def after (t : OperatorTree) (s : Sign) : Parsing :=
  if s.tight then { product := some (t, s) } else { sum := some (t, s) }

lemma operand_after {t : OperatorTree} {s : Sign} : (after t s).operand = [] := by
  cases h : s.tight <;> simp [after, h]

/-- The first operator. -/
lemma step_first {s : Sign} {as : List Atom} :
    ({ operand := as } : Parsing).step (.sign s) = after (.operand as) s := by
  cases h : s.tight <;> simp [after, step, tree, factors, attach, h]

/-- Two operators of one kind group to the left, whatever their precedence. -/
lemma step_after {t : OperatorTree} {s : Sign} {as : List Atom} :
    ({ after t s with operand := as } : Parsing).step (.sign s) =
      after (.node s t (.operand as)) s := by
  cases h : s.tight <;> simp [after, step, tree, factors, attach, h]

lemma tree_after {t : OperatorTree} {s : Sign} {as : List Atom} :
    ({ after t s with operand := as } : Parsing).tree = .node s t (.operand as) := by
  cases h : s.tight <;> simp [after, tree, factors, attach, h]

/-- No operand that has been read holds an operator. -/
structure Clean (p : Parsing) : Prop where
  sum : ∀ q ∈ p.sum, ∀ as ∈ q.1.operands, ∀ s, Atom.sign s ∉ as
  product : ∀ q ∈ p.product, ∀ as ∈ q.1.operands, ∀ s, Atom.sign s ∉ as
  operand : ∀ s, Atom.sign s ∉ p.operand

lemma Clean.attach {right : OperatorTree} {left : Option (OperatorTree × Sign)}
    (hr : ∀ as ∈ right.operands, ∀ s, Atom.sign s ∉ as)
    (hl : ∀ q ∈ left, ∀ as ∈ q.1.operands, ∀ s, Atom.sign s ∉ as) :
    ∀ as ∈ (Parsing.attach right left).operands, ∀ s, Atom.sign s ∉ as := by
  cases left with
  | none => exact hr
  | some q =>
    intro as has
    rcases List.mem_append.1 has with h | h
    · exact hl q rfl as h
    · exact hr as h

lemma Clean.factors (h : p.Clean) : ∀ as ∈ p.factors.operands, ∀ s, Atom.sign s ∉ as := by
  refine Clean.attach ?_ h.product
  intro as has
  obtain rfl := List.mem_singleton.1 has
  exact h.operand

lemma Clean.tree (h : p.Clean) : ∀ as ∈ p.tree.operands, ∀ s, Atom.sign s ∉ as :=
  Clean.attach h.factors h.sum

lemma Clean.step (h : p.Clean) (a : Atom) : (p.step a).Clean := by
  have grown (b : Atom) (hb : b.sign? = none) :
      ({ p with operand := p.operand ++ [b] } : Parsing).Clean := by
    refine ⟨h.sum, h.product, fun s hs => ?_⟩
    rcases List.mem_append.1 hs with hs | hs
    · exact h.operand s hs
    · obtain rfl := List.mem_singleton.1 hs
      cases hb
  cases a with
  | sign s =>
    cases hs : s.tight with
    | true =>
      rw [step_of_tight hs]
      exact ⟨h.sum, by simpa using h.factors, by simp⟩
    | false =>
      rw [step_of_loose hs]
      exact ⟨by simpa using h.tree, by simp, by simp⟩
  | char c => exact grown (.char c) rfl
  | piece q => exact grown (.piece q) rfl

lemma Clean.foldl_step (h : p.Clean) (as : List Atom) : (as.foldl Parsing.step p).Clean := by
  induction as generalizing p with
  | nil => exact h
  | cons a as ih => exact ih (h.step a)

end Parsing

namespace Fragment

/-- Parsing cuts at every operator: no operand holds one. -/
lemma sign_notMem_operands_parse {f : Fragment} {as : List Atom} (h : as ∈ f.parse.operands)
    (s : Sign) : Atom.sign s ∉ as := by
  have start : ({} : Parsing).Clean := ⟨by simp, by simp, by simp⟩
  exact (start.foldl_step f.atoms).tree as h s

/-- The atoms of fragments with an operator between them. -/
lemma atoms_joined {s : Sign} {separator : String} {f : Fragment} {fs : List Fragment}
    (h : (text separator).atoms = [.sign s]) :
    (joined separator (f :: fs)).atoms = f.atoms ++ fs.flatMap fun g => .sign s :: g.atoms := by
  induction fs generalizing f with
  | nil => simp [joined]
  | cons g fs ih =>
    rw [joined, atoms_append, atoms_append, h, ih]
    simp

/-- Reading operands that keep together, with one operator before each. -/
lemma foldl_step_operands {s : Sign} {t : OperatorTree} {as : List Atom} {fs : List Fragment}
    (h : ∀ f ∈ fs, f.Delimited) :
    ((fs.flatMap fun g => .sign s :: g.atoms).foldl Parsing.step
        { Parsing.after t s with operand := as }).tree =
      (fs.map atoms).foldl (fun t as => .node s t (.operand as)) (.node s t (.operand as)) := by
  induction fs generalizing t as with
  | nil => exact Parsing.tree_after
  | cons f fs ih =>
    obtain ⟨hf, hfs⟩ := List.forall_mem_cons.1 h
    rw [List.flatMap_cons, List.foldl_append, List.foldl_cons, Parsing.step_after,
      Parsing.foldl_step_operand (sign_notMem_atoms hf)]
    rw [Parsing.operand_after, List.nil_append, ih hfs]
    rfl

/-- Operands that keep together are grouped to the left. -/
lemma parse_joined {s : Sign} {separator : String} {fs : List Fragment}
    (hs : (text separator).atoms = [.sign s]) (h : ∀ f ∈ fs, f.Delimited) :
    (joined separator fs).parse = .chain s (fs.map atoms) := by
  match fs with
  | [] => rfl
  | [f] =>
    have hf := sign_notMem_atoms (h f List.mem_cons_self)
    rw [joined, parse, Parsing.foldl_step_operand hf]
    rfl
  | f :: g :: fs =>
    obtain ⟨hf, hrest⟩ := List.forall_mem_cons.1 h
    obtain ⟨hg, hfs⟩ := List.forall_mem_cons.1 hrest
    rw [parse, atoms_joined hs, List.foldl_append,
      Parsing.foldl_step_operand (sign_notMem_atoms hf), List.flatMap_cons, List.foldl_append,
      List.foldl_cons, List.nil_append, Parsing.step_first,
      Parsing.foldl_step_operand (sign_notMem_atoms hg), Parsing.operand_after, List.nil_append,
      foldl_step_operands hfs]
    rfl

/-- The text of joined operands parses to their chain exactly if each of them keeps together. -/
lemma parse_joined_eq_chain_iff {s : Sign} {separator : String} {fs : List Fragment}
    (hs : (text separator).atoms = [.sign s]) :
    (joined separator fs).parse = .chain s (fs.map atoms) ↔ ∀ f ∈ fs, f.Delimited := by
  refine ⟨fun h f hf => ?_, parse_joined hs⟩
  refine delimited_of_sign_notMem fun s' => ?_
  -- the atoms of `f` are an operand of the chain, and no operand of a parse holds an operator
  refine sign_notMem_operands_parse (f := joined separator fs) ?_ s'
  rw [h]
  cases fs with
  | nil => cases hf
  | cons g gs =>
    rw [List.map_cons, OperatorTree.operands_chain, ← List.map_cons]
    exact List.mem_map_of_mem hf

end Fragment

end PipelineSql
