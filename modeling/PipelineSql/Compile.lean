import PipelineSql.Draft
import PipelineSql.Grammar
import PipelineSql.Pipeline.Pass
import PipelineSql.Pipeline.Validity

/-!
# Compiling pipelines

A pipeline over a target becomes one statement with its bind values and a report of every deviation.
Names and the order of stages are checked first, all issues at once; then the first feature without
a counterpart is an error.
-/

namespace PipelineSql

/-- The alias of the outermost collection. -/
def baseAlias : String := "base"

/-- The context of a compilation in the beginning. -/
def Context.of (t : Target) (o : Options) : Context where
  dialect := o.dialect
  strict := o.strict
  inlineBinds := o.inlineBinds
  checked := false
  schema := t.schema
  dataColumn := t.dataColumn
  scope := .document baseAlias t.dataColumn

/-- The environment of a compilation in the beginning. -/
def Env.of (t : Target) (o : Options) : Env :=
  (Context.of t o).env

/-- A statement as text, with what came with it. -/
structure Compiled where
  sql : String
  /-- The values of the placeholders in order. -/
  binds : List Literal
  warnings : List Warning
  /-- The worst capability of any warning. -/
  capability : Capability
  dialect : Dialect

namespace Compiled

/-- Is the statement faithful in all cases? -/
def isExact (c : Compiled) : Bool :=
  c.capability = .full

/-- The warning as JSON. -/
def warningJson (w : Warning) : Json :=
  .obj [("stage", w.stage.elim .null .str), ("feature", .str w.deviation.feature),
    ("message", .str w.deviation.message), ("capability", .str w.deviation.capability.name)]

/-- The result as JSON. -/
def toJson (c : Compiled) : Json :=
  .obj [("sql", .str c.sql), ("binds", .arr (c.binds.map Literal.toJson)),
    ("warnings", .arr (c.warnings.map warningJson)), ("capability", .str c.capability.name),
    ("dialect", .str c.dialect.name)]

end Compiled

namespace Pipeline

/-- The collection that the pipeline reads. -/
def collection (p : Pipeline) (t : Target) : String :=
  p.source.getD t.collection

/-- The stages before a writing stage at the end, and that stage. -/
def splitTerminal (stages : List Stage) : List Stage × Option Stage :=
  match stages.getLast? with
  | none => (stages, none)
  | some last => if last.isTerminal then (stages.dropLast, some last) else (stages, none)

/-- The statement around a draft: a query, or one that writes. -/
def finish (t : Target) (b : Draft) : Option Stage → Render Statement
  | none => do
    let query ← b.finish
    return .query { query with ctes := b.ctes }
  | some (.out spec) => Render.inStage (some "$out") (b.outStatement t spec)
  | some (.merge spec) => Render.inStage (some "$merge") (b.mergeStatement t spec)
  | some s => fault (.misplaced s.name)

/-- The statement of a pipeline. -/
def statement (p : Pipeline) (t : Target) : Render Statement := do
  let (stages, terminal) := splitTerminal p.stages
  let base ← Draft.ofCollection (p.collection t) baseAlias []
  finish t (← Draft.stages stages base) terminal

/-- The statement of a pipeline and what was emitted on the way, or an error. -/
def compilation (p : Pipeline) (t : Target) (o : Options) :
    EStateM.Result Error Emission Statement :=
  match (p.statement t).exec.run (Context.of t o) with
  | .ok s c => .ok s c.emission
  | .error x c => .error x c.emission

end Pipeline

/-- The layout that options ask for. -/
def Options.layout (o : Options) : Layout :=
  if o.pretty then .pretty else .compact

/-- A statement as tokens, with what came with it. -/
structure Rendition where
  /-- The tokens, with their placeholders numbered in the order of the text. -/
  tokens : List Token
  /-- The values of the placeholders in order. -/
  binds : List Literal
  warnings : List Warning
  /-- The worst capability of any warning. -/
  capability : Capability

namespace Rendition

/-- Tokens with their placeholders numbered. -/
def of (tokens : List Token) (e : Emission) : Rendition :=
  let (tokens, binds) := Token.number e.values tokens
  { tokens, binds, warnings := e.warnings, capability := e.capability }

/-- The statement as text. -/
def print (o : Options) (r : Rendition) : Compiled where
  sql := Token.printAll o.dialect o.layout r.tokens
  binds := r.binds
  warnings := r.warnings
  capability := r.capability
  dialect := o.dialect

end Rendition

/-- The text of tokens and its bind values. -/
def assemble (o : Options) (tokens : List Token) (e : Emission) : Compiled :=
  (Rendition.of tokens e).print o

/-- The pipeline that is compiled, once names and the order of stages are found admissible. -/
def admitted (p : Pipeline) (t : Target) (o : Options) : Result Pipeline := do
  t.check
  let issues := validate (p.collection t) p.stages
  if !issues.isEmpty then throw (.validation issues)
  return if o.optimize then p.optimize else p

/-- Translate a pipeline into the tokens of a statement. -/
def translate (p : Pipeline) (t : Target) (o : Options) : Result Rendition := do
  let p ← admitted p t o
  match p.compilation t o with
  | .ok s emission => return .of (s.fragment o.dialect).tokens emission
  | .error e _ => throw e

/-- Compile a pipeline. -/
def compile (p : Pipeline) (t : Target) (o : Options) : Result Compiled := do
  return (← translate p t o).print o

/-- Read a pipeline and compile it. -/
def compileJson (pipeline : Json) (t : Target) (o : Options) : Result Compiled := do
  compile { stages := ← parsePipeline pipeline } t o

end PipelineSql
