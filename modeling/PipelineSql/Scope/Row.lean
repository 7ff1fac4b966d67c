import PipelineSql.Scope.Object

/-!
# Rows

The row of a scope as named entries, as one document, and as a select list.
-/

namespace PipelineSql

/-- A named value of the row. -/
structure Entry where
  name : Path
  value : Fragment
  json : Bool
  /-- Does the row source already offer it under this name? -/
  passthrough : Bool := false

namespace Entry

/-- The entry of a column. -/
def ofColumn (c : Column) : Entry :=
  match c.value with
  | .of source => ⟨c.name, Fragment.column source c.name.toString, c.json, true⟩
  | .output value => ⟨c.name, value, c.json, false⟩

/-- The entry of a computed field. -/
def ofComputed (c : Computed) : Entry :=
  ⟨c.name, c.value, c.json, false⟩

/-- The entry of a lookup. -/
def ofFound (l : Found) : Entry :=
  ⟨l.asField, Fragment.column l.source docsColumn, true, false⟩

/-- The entries of an unwound array. -/
def ofUnwound (u : Unwound) : List Entry :=
  let element : Entry := ⟨u.path, Fragment.column u.source valueColumn, true, false⟩
  match u.index with
  | none => [element]
  | some index => [element, ⟨index, positionOf u.source, false, false⟩]

/-- Entries with one more, which replaces one of the same name and goes last. -/
def put (entries : List Entry) (e : Entry) : List Entry :=
  entries.filter (fun e' => e'.name != e.name) ++ [e]

/-- Entries of which each shadows those of its name before it. -/
def distinct (entries : List Entry) : List Entry :=
  entries.foldl put []

/-- The object of all entries. -/
def object (entries : List Entry) : Fragment :=
  let members := entries.foldl (fun ms e => Member.put e.value e.json e.name.segments ms) []
  Member.fragment (.object members)

end Entry

namespace Scope

/-- The entries that are not yet part of the document. -/
def pending (s : Scope) : List Entry :=
  s.computed.map Entry.ofComputed ++ s.lookups.map Entry.ofFound ++
    s.unwinds.flatMap Entry.ofUnwound

/-- The entries of the row. -/
def entries (s : Scope) : List Entry :=
  Entry.distinct (s.columns.map Entry.ofColumn ++ s.pending)

/-- The setting of one field of a document. -/
def assignment (e : Entry) : Fragment :=
  "SET " ++ Fragment.string e.name.json ++ " = " ++ e.value.formatted e.json

/-- A document with entries put into it. -/
def merged (d : Dialect) (base : Fragment) (entries : List Entry) : Fragment :=
  if entries.isEmpty then base
  else if d.hasJsonTransform then
    Fragment.call "JSON_TRANSFORM" (base :: entries.map assignment)
  else Fragment.call "JSON_MERGEPATCH" [base, Entry.object entries]

/-- The row as one document. -/
def documentValue (s : Scope) (d : Dialect) : Fragment :=
  match s.doc with
  | none => Entry.object s.entries
  | some doc => merged d doc.fragment (Entry.distinct s.pending)

/-- The item of the select list for an entry. -/
def entryItem (e : Entry) : SelectItem :=
  if e.passthrough then ⟨e.value, none⟩ else .named e.value e.name.toString

/-- The select list that yields the row. -/
def selectItems (s : Scope) (d : Dialect) (dataColumn : String) : List SelectItem :=
  let row := match s.doc with
    | none => s.entries.map entryItem
    | some (.column _ name) =>
      if !s.hasPending && name = dataColumn then [⟨s.documentValue d, none⟩]
      else [.named (s.documentValue d) dataColumn]
    | some (.computed _) => [.named (s.documentValue d) dataColumn]
  row ++ s.extras

/-- The scope of a query over this one wrapped under an alias. -/
def wrapped (s : Scope) (label dataColumn : String) : Scope :=
  if s.isDocument then document label dataColumn
  else { columns := s.entries.map fun e => ⟨e.name, .of label, e.json⟩ }

end Scope

end PipelineSql
