import PipelineSql.Settings.Expand
import PipelineSql.Target
import PipelineSql.Toml.Reader

/-!
# Settings

The target and the options from a settings file. What the file does not set keeps its default, and
keys that are not known are ignored. Variables are replaced in the names of the collection and the
schema.
-/

namespace PipelineSql

/-- A target and options. -/
structure Settings where
  target : Target := {}
  options : Options := {}
deriving DecidableEq, Repr

namespace Settings

/-- Why settings are refused. -/
inductive Refusal where
  /-- There is no such file. -/
  | notFound
  /-- The text is not TOML, or a value has the wrong type. -/
  | malformed
  | missingVariable (name : String)
  | invalid (cause : Error)
deriving DecidableEq, Repr

/-- The text of a refusal, where it has one. -/
def Refusal.message? : Refusal → Option String
  | .notFound | .malformed => none
  | .missingVariable name => some s!"Missing environment variable: {name}"
  | .invalid cause => some s!"Invalid configuration: {cause.message}"

open Toml (Entries)

/-- The entries of a section; none if it is absent. -/
def subtable? (doc : Entries) (name : String) : Option Entries :=
  match doc.lookup name with
  | none => some []
  | some (.table _ entries) => some entries
  | some _ => none

/-- A setting that is absent or has the right type. -/
def setting? {α : Type} (read : Toml.Value → Option α) (es : Entries) (key : String) :
    Option (Option α) :=
  match es.lookup key with
  | none => some none
  | some v => (read v).map some

/-- The text of a value. -/
def text? : Toml.Value → Option String
  | .string s => some s
  | _ => none

/-- The truth of a value. -/
def flag? : Toml.Value → Option Bool
  | .boolean b => some b
  | _ => none

/-- The dialect that a value names exactly. -/
def dialect? (v : Toml.Value) : Option Dialect :=
  text? v >>= Dialect.ofName?

/-- The target of a section. -/
def target? (es : Entries) : Option Target := do
  let default : Target := {}
  some {
    collection := (← setting? text? es "collection").getD default.collection
    schema := ← setting? text? es "schema"
    dataColumn := (← setting? text? es "data_column").getD default.dataColumn
    idColumn := (← setting? text? es "id_column").getD default.idColumn }

/-- The options of a section. -/
def options? (es : Entries) : Option Options := do
  let default : Options := {}
  some {
    inlineBinds := (← setting? flag? es "inline_binds").getD default.inlineBinds
    pretty := (← setting? flag? es "pretty").getD default.pretty
    strict := (← setting? flag? es "strict").getD default.strict
    optimize := (← setting? flag? es "optimize").getD default.optimize
    dialect := (← setting? dialect? es "dialect").getD default.dialect }

/-- The settings of a document. -/
def ofDocument? (doc : Entries) : Option Settings := do
  some {
    target := ← target? (← subtable? doc "oracle")
    options := ← options? (← subtable? doc "translation") }

/-- A name with its variables replaced. -/
def expanded (vars : Variables) (name : String) : Except Refusal String :=
  (expand vars name).mapError fun e => .missingVariable e.name

/-- Refuse names that are not admissible. Without a collection nothing is checked, because pipelines
may name their own. -/
def check (s : Settings) : Except Refusal Unit :=
  if s.target.collection = "" then pure () else s.target.check.mapError .invalid

/-- The settings that a text spells. -/
def ofText (vars : Variables) (text : String) : Except Refusal Settings := do
  let some s := Toml.parse? text >>= ofDocument? | throw .malformed
  let collection ← expanded vars s.target.collection
  let schema ← s.target.schema.mapM (expanded vars)
  let s := { s with target := { s.target with collection, schema } }
  s.check
  return s

/-- The settings of a file, by its text if it exists. -/
def ofFile (vars : Variables) : Option String → Except Refusal Settings
  | none => throw .notFound
  | some text => ofText vars text

/-- The settings of a file if one is named, else the defaults. -/
def load (vars : Variables) : Option String → Except Refusal Settings
  | none => pure {}
  | some text => ofText vars text

end Settings

end PipelineSql
