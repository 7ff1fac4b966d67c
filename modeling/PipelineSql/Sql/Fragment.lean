import PipelineSql.Sql.Token

/-!
# Fragments

A fragment of SQL is a tree: what stands between brackets or between `CASE` and `END` is one piece,
and so is a query with its row sources. So brackets always balance, what stands outside all brackets
is what stands at the top of the tree, and the sources that a column may refer to enclose it.
-/

namespace PipelineSql

/-- The columns that a row source offers. -/
inductive Offer where
  /-- Those of a stored table. -/
  | stored (schema : Option String) (table : String)
  /-- Those of a subquery that goes by a name. -/
  | named (name : String)
  | columns (names : List String)
deriving DecidableEq, Repr

/-- A source of rows, by its alias. -/
structure RowSource where
  label : String
  offer : Offer
deriving DecidableEq, Repr

/-- What encloses the body of a piece. -/
inductive Bracket where
  | round
  /-- `CASE … END` -/
  | cases
  /-- The extent of a query, with its row sources and the names of its columns. -/
  | query (sources : List RowSource) (columns : List (Option String))
  /-- The extent of a query inside an expression, with its row sources. -/
  | rows (sources : List RowSource)
  /-- The extent of a query that is a row source itself. It does not see the sources beside it. -/
  | derived
  /-- The extent in which subqueries go by names, with their columns. -/
  | named (subqueries : List (String × List String))
deriving DecidableEq, Repr

namespace Bracket

/-- The opening text. -/
def opening : Bracket → List Token
  | .round => [.text "("]
  | .cases => [.text "CASE"]
  | .query .. | .rows _ | .derived | .named _ => []

/-- The closing text. -/
def closing : Bracket → List Token
  | .round => [.text ")"]
  | .cases => [.text " END"]
  | .query .. | .rows _ | .derived | .named _ => []

end Bracket

/-- A token, or a bracketed sequence of pieces. -/
inductive Piece where
  | token (t : Token)
  | group (b : Bracket) (body : List Piece)

/-- A sequence of pieces. -/
abbrev Fragment := List Piece

mutual

/-- The tokens of a piece. -/
def Piece.tokens : Piece → List Token
  | .token t => [t]
  | .group b body => b.opening ++ Piece.flatten body ++ b.closing

/-- The tokens of a sequence of pieces. -/
def Piece.flatten : List Piece → List Token
  | [] => []
  | p :: ps => p.tokens ++ Piece.flatten ps

end

namespace Fragment

/-- The tokens of a fragment. -/
def tokens (f : Fragment) : List Token :=
  Piece.flatten f

/-- A single token. -/
def ofToken (t : Token) : Fragment :=
  [.token t]

/-- Text that stands for itself. -/
def text (s : String) : Fragment :=
  [.token (.text s)]

instance : Coe String Fragment := ⟨text⟩

instance : Coe Token Fragment := ⟨ofToken⟩

/-- A fragment in brackets. -/
def paren (body : Fragment) : Fragment :=
  [.group .round body]

/-- A subquery over the given sources. -/
def subquery (sources : List RowSource) (body : Fragment) : Fragment :=
  paren [.group (.rows sources) body]

/-- A query in brackets as a row source. -/
def derived (body : Fragment) : Fragment :=
  [.group .derived body]

/-- Fragments with a separator between them. -/
def joined (separator : String) : List Fragment → Fragment
  | [] => []
  | [f] => f
  | f :: g :: rest => f ++ text separator ++ joined separator (g :: rest)

/-- Fragments with commas between them. -/
def commas (fs : List Fragment) : Fragment :=
  joined ", " fs

/-- A function call. -/
def call (name : String) (args : List Fragment) : Fragment :=
  text name ++ paren (commas args)

/-- `CASE WHEN … THEN … ELSE … END` -/
def cases (branches : List (Fragment × Fragment)) (otherwise : Option Fragment) : Fragment :=
  let branches := branches.flatMap fun (test, value) =>
    text " WHEN " ++ test ++ text " THEN " ++ value
  let otherwise := match otherwise with
    | some value => text " ELSE " ++ value
    | none => []
  [.group .cases (branches ++ otherwise)]

/-- A string constant. -/
def string (s : String) : Fragment :=
  ofToken (.string s)

/-- A number. -/
def int (n : Int) : Fragment :=
  ofToken (.int n)

/-- A column of a row source. -/
def column (source name : String) : Fragment :=
  ofToken (.column source name)

/-- An alias or a column without its source. -/
def ident (name : String) : Fragment :=
  ofToken (.ident name)

/-- The SQL null. -/
def null : Fragment :=
  ofToken .null

/-- The value, marked as JSON text if it is. -/
def formatted (f : Fragment) (json : Bool) : Fragment :=
  if json then f ++ text " FORMAT JSON" else f

end Fragment

end PipelineSql
