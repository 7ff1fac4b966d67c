import PipelineSql.Dialect

/-!
# Tokens

The units of SQL output and their text. Line breaks and indentation show only in the pretty layout.
-/

namespace PipelineSql

/-- A unit of SQL output. -/
inductive Token where
  /-- Keywords, punctuation, blanks: text that stands for itself. -/
  | text (s : String)
  | newline
  | indent (level : Nat)
  /-- The name of a table, a column or an alias. -/
  | ident (name : String)
  /-- A column of a row source. -/
  | column (source name : String)
  /-- A step of dot notation into a document. -/
  | step (segment : String)
  | table (schema : Option String) (name : String)
  | int (n : Int)
  | float (x : Float)
  | string (s : String)
  | bool (b : Bool)
  | null
  /-- A bind value: its slot in the list of emitted values, or its position once numbered. -/
  | bind (n : Nat)

/-- On one line, or on several with indentation. -/
inductive Layout where
  | compact
  | pretty
deriving DecidableEq, Repr

/-- A double in SQL; those that are not finite have names. -/
def floatText (x : Float) : String :=
  match Decimal.ofFloat? x with
  | some d => d.toText .bare
  | none =>
    if x > 0.0 then "BINARY_DOUBLE_INFINITY"
    else if x < 0.0 then "-BINARY_DOUBLE_INFINITY"
    else "BINARY_DOUBLE_NAN"

/-- A step of dot notation: a position, or a member. -/
def dotStep (segment : String) : String :=
  if isDigits segment then "[" ++ segment ++ "]" else "." ++ quoteName segment

namespace Token

/-- The token that writes a literal in place. -/
def literal : Literal → Token
  | .null => .null
  | .bool b => .bool b
  | .int n => .int n
  | .double x => .float x
  | .string s => .string s
  | l@(.array _) => .string l.text

/-- The text of a token. -/
def print (d : Dialect) (layout : Layout) : Token → String
  | .text s => s
  | .newline => if layout = .pretty then "\n" else " "
  | .indent level => if layout = .pretty then String.ofList (List.replicate (2 * level) ' ') else ""
  | .ident name => quoteName name
  | .column source name => quoteName source ++ "." ++ quoteName name
  | .step segment => dotStep segment
  | .table none name => quoteName name
  | .table (some schema) name => quoteName schema ++ "." ++ quoteName name
  | .int n => toString n
  | .float x => floatText x
  | .string s => quoteString s
  | .bool b => d.bool b
  | .null => "NULL"
  | .bind n => placeholder n

/-- The text of a sequence of tokens. -/
def printAll (d : Dialect) (layout : Layout) (ts : List Token) : String :=
  String.join (ts.map (print d layout))

/-- The placeholders numbered from `next` on in the order of the text, and their values: a slot that
is written twice is bound twice. -/
def numberFrom (slots : List Literal) (next : Nat) : List Token → List Token × List Literal
  | [] => ([], [])
  | .bind slot :: ts =>
    let (ts', values) := numberFrom slots (next + 1) ts
    (.bind next :: ts', slots.getD slot .null :: values)
  | t :: ts =>
    let (ts', values) := numberFrom slots next ts
    (t :: ts', values)

/-- The placeholders numbered from 1, and their values in that order. -/
def number (slots : List Literal) (ts : List Token) : List Token × List Literal :=
  numberFrom slots 1 ts

end Token

end PipelineSql
