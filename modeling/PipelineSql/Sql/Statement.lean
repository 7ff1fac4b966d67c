import PipelineSql.Sql.Query

/-!
# Statements

A query by itself, or one whose rows are written to a table.
-/

namespace PipelineSql

/-- The writing of rows into a table by a key. -/
structure MergeStatement where
  target : TableRef
  source : Query
  sourceAlias : String
  on : Condition
  /-- What is done with matched rows. -/
  matched : Option Fragment
  /-- What is done with the others. -/
  unmatched : Option Fragment

/-- A statement. -/
inductive Statement where
  | query (q : Query)
  | insert (target : TableRef) (columns : List String) (q : Query)
  | merge (m : MergeStatement)

namespace Statement

/-- An action of a merge on a line of its own. -/
def action (keyword : String) : Option Fragment → Fragment
  | none => []
  | some body => Query.newline ++ keyword ++ body

/-- The row sources of a merge: the table that is written, and the rows that are. -/
def mergeSources (m : MergeStatement) : List RowSource :=
  (m.target.label.map fun label => ⟨label, m.target.offer⟩).toList ++
    [⟨m.sourceAlias, .columns m.source.columns⟩]

/-- The layout of a statement. -/
def fragment (d : Dialect) : Statement → Fragment
  | .query q => q.fragment d
  | .insert target columns q =>
    "INSERT INTO " ++ target.fragment ++ " " ++ nameList columns ++ Query.newline ++ q.fragment d
  | .merge m =>
    [.group (.rows (mergeSources m))
      ("MERGE INTO " ++ m.target.fragment ++ Query.newline ++ "USING " ++
        Fragment.derived (Query.nested (m.source.fragment d)) ++ " " ++
        Fragment.ident m.sourceAlias ++ Query.newline ++ "ON " ++ Fragment.paren m.on.fragment ++
        action "WHEN MATCHED THEN " m.matched ++ action "WHEN NOT MATCHED THEN " m.unmatched)]

/-- The text of a statement. -/
def print (d : Dialect) (layout : Layout) (s : Statement) : String :=
  Token.printAll d layout (s.fragment d).tokens

end Statement

end PipelineSql
