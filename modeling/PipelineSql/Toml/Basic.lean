/-!
# TOML documents

A document is a table of values, built line by line. Every key is set once, every table is opened
once, and a table that was written in one piece is closed to further keys.
-/

namespace PipelineSql.Toml

/-- How a table came to be, which decides what may still be added to it. -/
inductive Origin where
  /-- The header of a table inside it. -/
  | implied
  /-- A header of its own. -/
  | header
  /-- A dotted key. -/
  | dotted
  /-- Written in one piece. -/
  | inline
deriving DecidableEq, Repr

/-- A value. Numbers are kept as they are written. -/
inductive Value where
  | string (s : String)
  | boolean (b : Bool)
  | number (token : String)
  | array (items : List Value)
  | table (origin : Origin) (entries : List (String × Value))

/-- The entries of a table. -/
abbrev Entries := List (String × Value)

namespace Entries

/-- The entries with another value for a key. -/
def replace (es : Entries) (key : String) (v : Value) : Entries :=
  es.map fun e => if e.1 = key then (key, v) else e

/-- The entries with a value at a dotted key, whose tables are created on the way. Nothing is
replaced, and no table that was written otherwise is extended. -/
def assign (v : Value) : List String → Entries → Option Entries
  | [], _ => none
  | [key], es => if (es.lookup key).isSome then none else some (es ++ [(key, v)])
  | key :: path, es =>
    match es.lookup key with
    | none => do some (es ++ [(key, .table .dotted (← assign v path []))])
    | some (.table .dotted sub) => do some (es.replace key (.table .dotted (← assign v path sub)))
    | some (.table .implied sub) => do some (es.replace key (.table .implied (← assign v path sub)))
    | some _ => none

/-- The entries with the table of a header, which must be new but for tables inside it. -/
def openTable : List String → Entries → Option Entries
  | [], _ => none
  | [key], es =>
    match es.lookup key with
    | none => some (es ++ [(key, .table .header [])])
    | some (.table .implied sub) => some (es.replace key (.table .header sub))
    | some _ => none
  | key :: path, es =>
    match es.lookup key with
    | none => do some (es ++ [(key, .table .implied (← openTable path []))])
    | some (.table .inline _) => none
    | some (.table origin sub) => do some (es.replace key (.table origin (← openTable path sub)))
    | some _ => none

/-- The entries with a change to the table at a path. -/
def modifyAt (f : Entries → Option Entries) : List String → Entries → Option Entries
  | [], es => f es
  | key :: path, es =>
    match es.lookup key with
    | some (.table origin sub) => do some (es.replace key (.table origin (← modifyAt f path sub)))
    | _ => none

end Entries

end PipelineSql.Toml
