import PipelineSql.Render.Basic

/-!
# Fields and variables

How fields, document variables and element variables are extracted: as a scalar, as JSON, or as an
array whose elements are wanted. None of this can fail but for a variable that is not bound.
-/

namespace PipelineSql

/-- `JSON_QUERY(doc, 'path')`, in an array wrapper if several values may be found. -/
def jsonQuery (doc : Fragment) (path : String) (wrapper : Bool) : Fragment :=
  "JSON_QUERY" ++ Fragment.paren
    (doc ++ ", " ++ Fragment.string path ++ if wrapper then " WITH ARRAY WRAPPER" else "")

/-- `JSON_VALUE(doc, 'path' RETURNING type)`. Text is the default type, and JSON is queried. -/
def jsonValue (d : Dialect) (doc : Fragment) (path : String) (type : Option JsonType) : Fragment :=
  match type with
  | some .json => jsonQuery doc path false
  | none | some .varchar => Fragment.call "JSON_VALUE" [doc, Fragment.string path]
  | some t =>
    "JSON_VALUE" ++ Fragment.paren
      (doc ++ ", " ++ Fragment.string path ++ " RETURNING " ++ d.returnType t)

/-- The method that extracts a scalar in dot notation. -/
def itemMethod : JsonType → String
  | .varchar => ".string()"
  | .number => ".number()"
  | .date => ".date()"
  | .timestamp => ".timestamp()"
  | .boolean => ".boolean()"
  | .json => ""

/-- The scalar at a place. -/
def Location.scalar (d : Dialect) (l : Location) (type : Option JsonType) : Fragment :=
  if l.each then jsonQuery l.doc l.path true
  else if l.dotted && !l.steps.isEmpty then l.dotFragment ++ itemMethod (type.getD .varchar)
  else jsonValue d l.doc l.path type

/-- A JSON array at a path inside a value. -/
structure ArraySource where
  doc : Fragment
  path : String
  /-- Does the path already lead to the elements? -/
  each : Bool := false

namespace ArraySource

/-- A value that is the array itself. -/
def ofValue (doc : Fragment) : ArraySource :=
  { doc, path := "$" }

/-- The path of the elements. -/
def elementsPath (a : ArraySource) : String :=
  if a.each then a.path else a.path ++ "[*]"

/-- The path with one more step. -/
def step (a : ArraySource) (s : String) : String :=
  a.path ++ s

end ArraySource

/-- A reference to the element of a row: the whole as text, number or JSON, or a part of it. -/
def elementValue (d : Dialect) (source : String) (path : Option Path) (type : Option JsonType) :
    Fragment :=
  match path with
  | some p => jsonValue d (Fragment.column source valueColumn) p.json type
  | none =>
    match type with
    | some .number => Fragment.column source "n"
    | some .json => Fragment.column source valueColumn
    | _ => Fragment.column source "s"

namespace Env

/-- The row source of an element variable. -/
def element? (env : Env) (name : String) : Option String :=
  env.elements.lookup name

/-- What a path stands for. -/
def resolve (env : Env) (path : Path) : Resolved :=
  env.scope.resolve path false

/-- A field as a scalar; a missing field is null. -/
def fieldValue (env : Env) (path : Path) (type : Option JsonType) : Fragment :=
  match env.resolve path with
  | .value f json =>
    match type with
    | none | some .json => f
    | some t => if json then jsonValue env.dialect f "$" (some t) else f
  | .place l => l.scalar env.dialect type
  | .missing => Fragment.null

/-- A field as JSON, and whether the text is JSON text. -/
def fieldJson (env : Env) (path : Path) : Fragment × Bool :=
  match env.resolve path with
  | .value f json => (f, json)
  | .place l =>
    if l.dotted then (l.dotFragment, env.dialect.hasJsonType)
    else if l.steps.isEmpty && !l.each then (l.doc, true)
    else (jsonQuery l.doc l.path l.each, true)
  | .missing => (Fragment.null, false)

/-- A field as an array. -/
def fieldSource (env : Env) (path : Path) : ArraySource :=
  match env.resolve path with
  | .value f _ => .ofValue f
  | .place l => { doc := l.doc, path := l.path, each := l.each }
  | .missing => .ofValue Fragment.null

/-- The JSON value and the path in it that hold a field, if it is inside a JSON value. -/
def location? (env : Env) (path : Path) : Option (Fragment × String) :=
  match env.resolve path with
  | .value f true => some (f, "$")
  | .value _ false => none
  | .place l => some (l.doc, l.path)
  | .missing => none

/-- The row as one document. -/
def document (env : Env) : Fragment :=
  env.scope.documentValue env.dialect

end Env

/-- The fixed variables that have a value of their own. -/
def constantVar? : String → Option Fragment
  | "REMOVE" => some Fragment.null
  | "NOW" => some "SYSTIMESTAMP"
  | "KEEP" => some (Fragment.string "KEEP")
  | "PRUNE" => some (Fragment.string "PRUNE")
  | "DESCEND" => some (Fragment.string "DESCEND")
  | _ => none

/-- A variable as a scalar. -/
def variableValue (name : String) (path : Option Path) (type : Option JsonType) :
    Render Fragment := do
  let env ← read
  match env.element? name with
  | some source => return elementValue env.dialect source path type
  | none =>
    if Expr.isDocumentVar name then
      match path with
      | some p => return env.fieldValue p type
      | none => return env.document
    else
      match constantVar? name with
      | some f => return f
      | none => unsupported (.unboundVariable name)

/-- A variable as JSON, and whether the text is JSON text. -/
def variableJson (name : String) (path : Option Path) : Render (Fragment × Bool) := do
  let env ← read
  match env.element? name with
  | some source =>
    let value := Fragment.column source valueColumn
    match path with
    | none => return (value, true)
    | some p => return (jsonQuery value p.json false, true)
  | none =>
    if Expr.isDocumentVar name then
      match path with
      | some p => return env.fieldJson p
      | none => return (env.document, true)
    else return (← variableValue name path none, false)

/-- A variable as an array. -/
def variableSource (name : String) (path : Option Path) : Render ArraySource := do
  let env ← read
  match env.element? name with
  | some source =>
    let path := match path with
      | none => "$"
      | some p => p.json
    return { doc := Fragment.column source valueColumn, path }
  | none =>
    match path with
    | some p =>
      if Expr.isDocumentVar name then return env.fieldSource p
      else return .ofValue (← variableJson name path).1
    | none => return .ofValue (← variableJson name path).1

end PipelineSql
