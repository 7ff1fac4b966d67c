import PipelineSql.Grammar.Filter
import PipelineSql.Grammar.Stage

/-!
# Reading pipelines

The fold that gives every JSON value its phrase, and the four ways to read a value.
-/

namespace PipelineSql

namespace Phrase

/-- The phrase of a value without parts. -/
def ofScalar (json : Json) (expr : Result Expr) : Phrase where
  json := json
  items := []
  entries := []
  expr := expr
  filter := fault (.wrongKind "$match filter" .document)
  operators _ := fault (.wrongKind "$not" .document)
  stage := fault (.wrongKind "stage" .document)
  pipeline := fault (.wrongKind "pipeline" .array)

/-- The phrase of an array. -/
def ofItems (json : List Json) (items : List Phrase) : Phrase :=
  { ofScalar (.arr json) (Grammar.arrayLiteral json) with
    items
    pipeline := items.mapM (·.stage) }

/-- The phrase of an object. -/
def ofEntries (json : List (String × Json)) (entries : Phrases) : Phrase :=
  { ofScalar (.obj json) (Grammar.object entries) with
    entries
    filter := Grammar.filter entries
    operators := Grammar.queryOperators entries
    stage := Grammar.stage entries }

mutual

/-- The phrase of a JSON value. -/
def ofJson : Json → Phrase
  | .null => ofScalar .null (pure (.lit .null))
  | .bool b => ofScalar (.bool b) (pure (.lit (.bool b)))
  | .num n => ofScalar (.num n) (pure (.lit (.ofNumber n)))
  | .str s => ofScalar (.str s) (Grammar.reference s)
  | .arr items => ofItems items (ofJsonItems items)
  | .obj entries => ofEntries entries (ofJsonEntries entries)

/-- The phrases of the items of an array. -/
def ofJsonItems : List Json → List Phrase
  | [] => []
  | j :: js => ofJson j :: ofJsonItems js

/-- The phrases of the entries of an object. -/
def ofJsonEntries : List (String × Json) → Phrases
  | [] => []
  | (key, j) :: rest => (key, ofJson j) :: ofJsonEntries rest

end

end Phrase

/-- Read an expression. -/
def parseExpression (j : Json) : Result Expr :=
  (Phrase.ofJson j).expr

/-- Read a filter. -/
def parseFilter (j : Json) : Result Expr :=
  (Phrase.ofJson j).filter

/-- Read a stage. -/
def parseStage (j : Json) : Result Stage :=
  (Phrase.ofJson j).stage

/-- Read a pipeline. -/
def parsePipeline (j : Json) : Result (List Stage) :=
  (Phrase.ofJson j).pipeline

end PipelineSql
