import PipelineSql.Literal
import PipelineSql.Text.Quoted

/-!
# Releases of the dialect

What differs between the supported database releases, and how names and strings are quoted. A name
is left bare when it is an identifier and not a reserved word.
-/

namespace PipelineSql

/-- A supported release. -/
inductive Dialect where
  | oracle19c
  | oracle23ai
  | oracle26ai
deriving DecidableEq, Repr

/-- The words that may not be used as bare names. -/
def reservedWords : List String :=
  [ "ACCESS", "ADD", "ALL", "ALTER", "AND", "ANY", "AS", "ASC", "AUDIT", "BETWEEN", "BY",
    "CHAR", "CHECK", "CLUSTER", "COLUMN", "COMMENT", "COMPRESS", "CONNECT", "CREATE",
    "CURRENT", "DATE", "DECIMAL", "DEFAULT", "DELETE", "DESC", "DISTINCT", "DROP", "ELSE",
    "EXCLUSIVE", "EXISTS", "FILE", "FLOAT", "FOR", "FROM", "GRANT", "GROUP", "HAVING",
    "IDENTIFIED", "IMMEDIATE", "IN", "INCREMENT", "INDEX", "INITIAL", "INSERT", "INTEGER",
    "INTERSECT", "INTO", "IS", "LEVEL", "LIKE", "LOCK", "LONG", "MAXEXTENTS", "MINUS",
    "MODE", "MODIFY", "NOAUDIT", "NOCOMPRESS", "NOT", "NOWAIT", "NULL", "NUMBER", "OF",
    "OFFLINE", "ON", "ONLINE", "OPTION", "OR", "ORDER", "PCTFREE", "PRIOR", "PUBLIC", "RAW",
    "RENAME", "RESOURCE", "REVOKE", "ROW", "ROWID", "ROWNUM", "ROWS", "SELECT", "SESSION",
    "SET", "SHARE", "SIZE", "SMALLINT", "START", "SUCCESSFUL", "SYNONYM", "SYSDATE", "TABLE",
    "THEN", "TO", "TRIGGER", "UID", "UNION", "UNIQUE", "UPDATE", "USER", "VALIDATE",
    "VALUES", "VARCHAR", "VARCHAR2", "VIEW", "WHENEVER", "WHERE", "WITH" ]

/-- Is the word reserved, in whatever case? -/
def isReserved (word : String) : Bool :=
  reservedWords.contains (String.ofList (word.toList.map Char.toUpper))

/-- May the text stand as a name without quotes? -/
def isBareName (s : String) : Bool :=
  match s.toList with
  | [] => false
  | c :: cs => c.isAlpha && cs.all isWordChar && !isReserved s

/-- A name, in double quotes unless it may stand bare. -/
def quoteName (s : String) : String :=
  if isBareName s then s else Quoted.encode '"' s

/-- A string constant. -/
def quoteString (s : String) : String :=
  Quoted.encode '\'' s

/-- The placeholder of the bind value at a position. -/
def placeholder (n : Nat) : String :=
  s!":{n}"

namespace Dialect

/-- Every release. -/
def all : List Dialect := [.oracle19c, .oracle23ai, .oracle26ai]

/-- The name in settings and results. -/
def name : Dialect → String
  | .oracle19c => "oracle19c"
  | .oracle23ai => "oracle23ai"
  | .oracle26ai => "oracle26ai"

/-- The other names that a release answers to. -/
def shortNames : List (String × Dialect) :=
  [("19c", .oracle19c), ("23ai", .oracle23ai), ("26ai", .oracle26ai), ("oracle", .oracle26ai)]

/-- The release with exactly the given name. -/
def ofName? (s : String) : Option Dialect :=
  all.find? fun d => d.name == s

/-- The release that a text names in any case, or the text in lower case. -/
def parse (s : String) : Except String Dialect :=
  let lower := String.ofList (s.toList.map Char.toLower)
  match (ofName? lower).or (shortNames.lookup lower) with
  | some d => .ok d
  | none => .error lower

/-- Is there a boolean type? -/
def hasBoolean : Dialect → Bool
  | .oracle19c => false
  | _ => true

/-- Is there a JSON type? -/
def hasJsonType : Dialect → Bool
  | .oracle19c => false
  | _ => true

/-- Is there a function that edits a document in place? -/
def hasJsonTransform : Dialect → Bool
  | .oracle19c => false
  | _ => true

/-- Must recursion be announced by a keyword? It shows in the column list of the subquery. -/
def marksRecursion (_ : Dialect) : Bool := false

/-- A boolean constant; without a boolean type it is the JSON text of the boolean. -/
def bool (d : Dialect) (b : Bool) : String :=
  match d.hasBoolean, b with
  | true, true => "TRUE"
  | true, false => "FALSE"
  | false, true => "'true'"
  | false, false => "'false'"

/-- The type as which a JSON scalar is returned. -/
def returnType (d : Dialect) : JsonType → String
  | .varchar => "VARCHAR2(4000)"
  | .number => "NUMBER"
  | .date => "DATE"
  | .timestamp => "TIMESTAMP"
  | .boolean => if d.hasBoolean then "BOOLEAN" else "VARCHAR2(5)"
  | .json => if d.hasJsonType then "JSON" else "CLOB"

/-- The type and place of the column of an expanded array that holds the element. -/
def elementDefinition (d : Dialect) : String :=
  if d.hasJsonType then "JSON PATH '$'" else "VARCHAR2(4000) FORMAT JSON PATH '$'"

/-- The column of an expanded array that holds the element. -/
def elementColumn (d : Dialect) : String :=
  "value " ++ d.elementDefinition

end Dialect

/-- The format of timestamps in universal time. -/
def timestampFormat : String := "YYYY-MM-DD\"T\"HH24:MI:SS.FF3\"Z\""

/-- The format of timestamps with an offset. -/
def zonedTimestampFormat : String := "YYYY-MM-DD\"T\"HH24:MI:SS.FF3TZH:TZM"

/-- A random sort key. -/
def randomKey : String := "DBMS_RANDOM.VALUE"

end PipelineSql
