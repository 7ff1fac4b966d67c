import PipelineSql.Stage.Build

/-!
# Phrases

A phrase is a JSON value together with everything that it can spell: an expression, a filter, the
operators on a field, a stage, a pipeline. What a value spells depends only on the value and on what
its parts spell, so the grammar is a fold over JSON, and the rules in
`PipelineSql.Grammar.Expression`, `PipelineSql.Grammar.Filter` and `PipelineSql.Grammar.Stage` never
recurse themselves.
-/

namespace PipelineSql

/-- A JSON value with all that it can spell. -/
structure Phrase where
  json : Json
  /-- The phrases of the items of an array. -/
  items : List Phrase
  /-- The phrases of the entries of an object. -/
  entries : List (String × Phrase)
  expr : Result Expr
  filter : Result Expr
  /-- The condition that an object of query operators puts on a field. -/
  operators : String → Result Expr
  stage : Result Stage
  pipeline : Result (List Stage)

/-- Does the text start with `$`? -/
def isReference (s : String) : Bool :=
  ['$'].isPrefixOf s.toList

/-- Does the text start with `$$`? -/
def isVariable (s : String) : Bool :=
  ['$', '$'].isPrefixOf s.toList

/-- The entries of a document, as phrases. -/
abbrev Phrases := List (String × Phrase)

namespace Phrases

/-- Is the key present? -/
def has (doc : Phrases) (key : String) : Bool :=
  (doc.lookup key).isSome

/-- The value of a key that must be there. -/
def required (doc : Phrases) (key what : String) : Result Phrase :=
  match doc.lookup key with
  | some p => pure p
  | none => fault (.missingKey what key)

/-- What an optional key holds. -/
def optional {α : Type} (doc : Phrases) (key : String) (read : Phrase → Result α) :
    Result (Option α) :=
  match doc.lookup key with
  | some p => return some (← read p)
  | none => pure none

/-- The only entry of a document. -/
def single (doc : Phrases) (what : String) : Result (String × Phrase) :=
  match doc with
  | [entry] => pure entry
  | _ => fault (.keyCount what doc.length)

/-- Refuse keys other than the given ones. -/
def only (doc : Phrases) (allowed : List String) (what : String) : Result Unit :=
  match doc.find? fun (key, _) => !allowed.contains key with
  | some (key, _) => fault (.unknownOption what key)
  | none => pure ()

/-- The expressions of all entries. -/
def exprs (doc : Phrases) : Result (List (String × Expr)) :=
  doc.mapM fun (name, p) => return (name, ← p.expr)

end Phrases

namespace Phrase

/-- The entries of a document. -/
def document (p : Phrase) (what : String) : Result Phrases :=
  match p.json with
  | .obj _ => pure p.entries
  | _ => fault (.wrongKind what .document)

/-- The items of an array. -/
def array (p : Phrase) (what : String) : Result (List Phrase) :=
  match p.json with
  | .arr _ => pure p.items
  | _ => fault (.wrongKind what .array)

/-- A string. -/
def string (p : Phrase) (what : String) : Result String :=
  match p.json with
  | .str s => pure s
  | _ => fault (.wrongKind what .string)

/-- An integral number; `5.0` is as good as `5`. -/
def integer (p : Phrase) (what : String) : Result Int :=
  match p.json with
  | .num n =>
    match n.toIntegral? with
    | some i => pure i
    | none => fault (.wrongKind what .integer)
  | _ => fault (.wrongKind what .integer)

/-- A boolean. -/
def boolean (p : Phrase) (what : String) : Result Bool :=
  match p.json with
  | .bool b => pure b
  | _ => fault (.wrongKind what .boolean)

/-- A constant. -/
def literal (p : Phrase) (what : String) : Result Literal :=
  match Literal.ofJson? p.json with
  | some l => pure l
  | none => fault (.wrongKind what .literal)

/-- A boolean, or a number for whether it is nonzero. -/
def flag? (p : Phrase) : Option Bool :=
  match p.json with
  | .bool b => some b
  | .num n => some n.isNonzero
  | _ => none

/-- Is the phrase the empty document? -/
def isEmptyDocument (p : Phrase) : Bool :=
  match p.json with
  | .obj [] => true
  | _ => false

/-- A field name or an array of field names. -/
def names (p : Phrase) (what : String) : Result (List String) :=
  match p.json with
  | .str s => pure [s]
  | _ => do (← p.array what).mapM (·.string what)

end Phrase

end PipelineSql
