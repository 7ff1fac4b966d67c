import PipelineSql.Sql.Query

/-!
# Scopes

A scope says what the current row looks like: a JSON document, possibly with fields that are
computed in the query but not yet part of the document, or a set of named columns. A path is looked
up first among computed fields, then among lookups, unwound arrays and columns, and last in the
document.
-/

namespace PipelineSql

/-- The column of a lookup that holds the matched documents. -/
def docsColumn : String := "docs"

/-- The column of a lookup that holds the join key. -/
def keyColumn : String := "k"

/-- The column of an expanded array that holds the element. -/
def valueColumn : String := "value"

/-- The column of an unwound array that holds the position, counted from 1. -/
def indexColumn : String := "idx"

/-- Where the document of a row comes from. -/
inductive DocSource where
  /-- A stored column, which allows dot notation. -/
  | column (source name : String)
  | computed (value : Fragment)

/-- The text of the document. -/
def DocSource.fragment : DocSource → Fragment
  | .column source name => Fragment.column source name
  | .computed value => value

/-- Where the value of a named column comes from. -/
inductive ColumnValue where
  /-- The column of that name of a row source. -/
  | of (source : String)
  /-- An expression that this query selects under the name. -/
  | output (value : Fragment)

/-- A named column of the row. -/
structure Column where
  name : Path
  value : ColumnValue
  /-- Does it hold JSON text? -/
  json : Bool

/-- A field that is computed in this query and not yet part of the document. -/
structure Computed where
  name : Path
  value : Fragment
  /-- Is the value JSON text? -/
  json : Bool

/-- The fields that an equality lookup compares. -/
structure ForeignKey where
  source : String
  localField : Path
  foreignField : Path
deriving DecidableEq, Repr

/-- The array of documents that a lookup found. -/
structure Found where
  asField : Path
  source : String
  /-- Known for lookups by equality. -/
  key : Option ForeignKey
deriving DecidableEq, Repr

/-- An unwound array. -/
structure Unwound where
  path : Path
  source : String
  index : Option Path
deriving DecidableEq, Repr

/-- What the current row looks like. -/
structure Scope where
  doc : Option DocSource := none
  columns : List Column := []
  computed : List Computed := []
  lookups : List Found := []
  unwinds : List Unwound := []
  /-- Columns that are selected beside the row. -/
  extras : List SelectItem := []

/-- A place inside a JSON value. -/
structure Location where
  doc : Fragment
  /-- The steps below `doc`; none for the value itself. -/
  steps : List String
  /-- Is `doc` a stored column, which allows dot notation? -/
  dotted : Bool := false
  /-- Is `doc` an array, to each of whose elements the steps apply? -/
  each : Bool := false

namespace Location

/-- The SQL/JSON path of a place. -/
def path (l : Location) : String :=
  (if l.each then "$[*]" else "$") ++ String.join (l.steps.map jsonStep)

/-- The place in dot notation. -/
def dotFragment (l : Location) : Fragment :=
  l.doc ++ (l.steps.map fun s => Fragment.ofToken (.step s)).flatten

end Location

/-- What a path stands for. -/
inductive Resolved where
  /-- A value that needs no extraction; `json` if it is JSON text. -/
  | value (f : Fragment) (json : Bool)
  | place (l : Location)
  /-- Nothing in scope produces the field. -/
  | missing

/-- The position of an unwound element, counted from 0. -/
def positionOf (source : String) : Fragment :=
  Fragment.column source indexColumn ++ " - 1"

/-- The value itself at its own path, a place in it below. -/
def resolveIn (name : Path) (value : Fragment) (json : Bool) (path : Path) : Option Resolved :=
  if name = path then some (.value value json)
  else (path.below? name).map fun rest => .place { doc := value, steps := steps rest }

/-- A path in a computed field. -/
def Computed.resolve? (c : Computed) (path : Path) : Option Resolved :=
  resolveIn c.name c.value c.json path

/-- A path in the documents that a lookup found: below it, a position picks one document and any
other step applies to each. -/
def Found.resolve? (l : Found) (path : Path) : Option Resolved :=
  let docs := Fragment.column l.source docsColumn
  if l.asField = path then some (.value docs true)
  else (path.below? l.asField).map fun rest =>
    .place { doc := docs, steps := steps rest, each := !isDigits (rest.headD "") }

/-- A path in an unwound element, or its position. -/
def Unwound.resolve? (u : Unwound) (path : Path) : Option Resolved :=
  if u.index = some path then some (.value (positionOf u.source) false)
  else
    let value := Fragment.column u.source valueColumn
    if u.path = path then some (.place { doc := value, steps := [] })
    else (path.below? u.path).map fun rest => .place { doc := value, steps := steps rest }

/-- A path in a column. In an `ORDER BY`, an output of the query itself goes by its name. -/
def Column.resolve? (c : Column) (orderBy : Bool) (path : Path) : Option Resolved :=
  let value := match c.value with
    | .of source => Fragment.column source c.name.toString
    | .output value => if orderBy && c.name = path then Fragment.ident c.name.toString else value
  resolveIn c.name value c.json path

/-- A path in the document. -/
def DocSource.resolve (doc : DocSource) (path : Path) : Resolved :=
  match doc with
  | .column .. => .place { doc := doc.fragment, steps := steps path.segments, dotted := true }
  | .computed value => .place { doc := value, steps := steps path.segments }

namespace Scope

/-- Rows that carry one document in a column. -/
def document (source column : String) : Scope :=
  { doc := some (.column source column) }

/-- Does the row carry a document? -/
def isDocument (s : Scope) : Bool :=
  s.doc.isSome

/-- Are there fields that are not yet part of the document? -/
def hasPending (s : Scope) : Bool :=
  !s.computed.isEmpty || !s.lookups.isEmpty || !s.unwinds.isEmpty

/-- The computed field of a name. -/
def computed? (s : Scope) (name : Path) : Option Computed :=
  s.computed.reverse.find? fun c => c.name = name

/-- The lookup of a name. -/
def lookup? (s : Scope) (name : Path) : Option Found :=
  s.lookups.reverse.find? fun l => l.asField = name

/-- The scope with a computed field, which replaces one of the same name. -/
def compute (s : Scope) (c : Computed) : Scope :=
  { s with computed := s.computed.filter (fun c' => c'.name != c.name) ++ [c] }

/-- What a path stands for. Later bindings shadow earlier ones of their kind. -/
def resolve (s : Scope) (path : Path) (orderBy : Bool) : Resolved :=
  let bound :=
    s.computed.reverse.findSome? (·.resolve? path) <|>
    s.lookups.reverse.findSome? (·.resolve? path) <|>
    s.unwinds.reverse.findSome? (·.resolve? path) <|>
    s.columns.reverse.findSome? (·.resolve? orderBy path)
  match bound, s.doc with
  | some r, _ => r
  | none, some doc => doc.resolve path
  | none, none => .missing

end Scope

end PipelineSql
