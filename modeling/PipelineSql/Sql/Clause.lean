import PipelineSql.Sql.Fragment
import PipelineSql.Window

/-!
# Clauses

The parts of a query that hold no query themselves: items of the select list, sort terms, the window
of rows that is returned, and frames of window functions.
-/

namespace PipelineSql

/-- A row count as it is written: the signed 64-bit word with the same bits. -/
def countToken (n : Nat) : Token :=
  .int (Int.bmod n wordCount)

/-- An item of a select list. -/
structure SelectItem where
  value : Fragment
  label : Option String := none

namespace SelectItem

/-- An item under a name. -/
def named (value : Fragment) (label : String) : SelectItem :=
  ⟨value, some label⟩

/-- The name of the column that an item yields, if it has one. -/
def column? (i : SelectItem) : Option String :=
  match i.label, i.value with
  | some label, _ => some label
  | none, [.token (.column _ name)] | none, [.token (.ident name)] => some name
  | none, _ => none

/-- The text of an item. -/
def fragment (i : SelectItem) : Fragment :=
  match i.label with
  | none => i.value
  | some label => i.value ++ " AS " ++ Fragment.ident label

end SelectItem

/-- The direction of a sort term, or the default if absent. -/
inductive Direction where
  | ascending
  | descending
deriving DecidableEq, Repr

/-- A term of an `ORDER BY`. -/
structure OrderTerm where
  value : Fragment
  direction : Option Direction := none
  /-- Do nulls come first? The default of the database if absent. -/
  nullsFirst : Option Bool := none

/-- The text of a sort term. -/
def OrderTerm.fragment (t : OrderTerm) : Fragment :=
  let direction := match t.direction with
    | none => ""
    | some .ascending => " ASC"
    | some .descending => " DESC"
  let nulls := match t.nullsFirst with
    | none => ""
    | some true => " NULLS FIRST"
    | some false => " NULLS LAST"
  t.value ++ (direction ++ nulls)

/-- The rows that a query returns, counted in its order. -/
structure RowWindow where
  limit : Option Nat := none
  offset : Option Nat := none
deriving DecidableEq, Repr

namespace RowWindow

/-- The number of rows to skip, if any. -/
def skipped (w : RowWindow) : Option Nat :=
  w.offset.filter (0 < ·)

/-- Does the window leave rows out? -/
def isLimited (w : RowWindow) : Bool :=
  w.limit.isSome || w.skipped.isSome

/-- `OFFSET m ROWS FETCH NEXT n ROWS ONLY`, or the part that applies. -/
def fragment (w : RowWindow) : Fragment :=
  match w.skipped, w.limit with
  | none, none => []
  | none, some n => "FETCH FIRST " ++ countToken n ++ " ROWS ONLY"
  | some m, none => "OFFSET " ++ countToken m ++ " ROWS"
  | some m, some n =>
    "OFFSET " ++ countToken m ++ " ROWS FETCH NEXT " ++ countToken n ++ " ROWS ONLY"

end RowWindow

/-- The text of an end of a frame. -/
def FrameBound.fragment : FrameBound → Fragment
  | .unboundedPreceding => "UNBOUNDED PRECEDING"
  | .preceding n => countToken n ++ " PRECEDING"
  | .currentRow => "CURRENT ROW"
  | .following n => countToken n ++ " FOLLOWING"
  | .unboundedFollowing => "UNBOUNDED FOLLOWING"

/-- The text of a frame. -/
def Frame.fragment (f : Frame) : Fragment :=
  let kind := match f.kind with
    | .rows => "ROWS "
    | .range => "RANGE "
  match f.upper with
  | none => kind ++ f.lower.fragment
  | some upper => kind ++ "BETWEEN " ++ f.lower.fragment ++ " AND " ++ upper.fragment

/-- A table to read or write. -/
structure TableRef where
  table : String
  schema : Option String := none
  label : Option String := none
  /-- Is it a subquery that goes by the name? -/
  isSubquery : Bool := false
deriving DecidableEq, Repr

namespace TableRef

/-- The text of a table; its alias follows without a keyword. -/
def fragment (t : TableRef) : Fragment :=
  let name : Fragment := Token.table t.schema t.table
  match t.label with
  | none => name
  | some label => name ++ " " ++ Fragment.ident label

/-- The columns that a table offers. -/
def offer (t : TableRef) : Offer :=
  if t.isSubquery then .named t.table else .stored t.schema t.table

end TableRef

/-- A column of an array that is expanded into rows: its name, and its type and place. -/
structure ElementColumn where
  name : String
  definition : String
deriving DecidableEq, Repr

/-- An array that is expanded into rows. -/
structure ElementTable where
  doc : Fragment
  path : String
  columns : List ElementColumn

namespace ElementTable

/-- The names of the columns. -/
def names (t : ElementTable) : List String :=
  t.columns.map ElementColumn.name

/-- `JSON_TABLE(doc, 'path' COLUMNS (…))` -/
def fragment (t : ElementTable) : Fragment :=
  let columns := t.columns.map fun c => Fragment.ident c.name ++ (" " ++ c.definition)
  "JSON_TABLE" ++ Fragment.paren (t.doc ++ ", " ++ Fragment.string t.path ++ " COLUMNS " ++
    Fragment.paren (Fragment.commas columns))

end ElementTable

/-- Names in brackets. -/
def nameList (names : List String) : Fragment :=
  Fragment.paren (Fragment.commas (names.map Fragment.ident))

end PipelineSql
