import PipelineSql.Scope.Row

/-!
# The context of a compilation

One context goes through a whole compilation. Commands read it and change it: they write text, emit
values, hand out aliases and warn. For a time they also replace the row, the element variables, the
stage, the way in which values are written, or the text, and put it back in the end, be it after an
error.
-/

namespace PipelineSql

/-- A deviation, with the stage that was being compiled. -/
structure Warning where
  stage : Option String
  deviation : Deviation
deriving DecidableEq, Repr

/-- The warning on one line. -/
def Warning.text (w : Warning) : String :=
  match w.stage with
  | some stage => s!"{w.deviation.feature} ({stage}): {w.deviation.message}"
  | none => s!"{w.deviation.feature}: {w.deviation.message}"

/-- The worst capability among warnings. -/
def Capability.ofWarnings (ws : List Warning) : Capability :=
  ws.foldl (fun c w => c.worse w.deviation.capability) .full

/-- What rendering depends on. -/
structure Env where
  dialect : Dialect
  /-- Is a partial deviation an error? -/
  strict : Bool
  /-- Are values written in place instead of being bound? -/
  inline : Bool
  /-- Does a sum of integers that leaves their range stop the program, instead of going round? -/
  checked : Bool
  schema : Option String
  dataColumn : String
  scope : Scope
  /-- The element variables with the sources of their rows, innermost first. -/
  elements : List (String × String)
  stage : Option String

/-- What rendering has produced besides text. -/
structure Emission where
  /-- The values behind bind slots. -/
  values : List Literal := []
  /-- The bases of the aliases that were handed out. -/
  aliases : List String := []
  warnings : List Warning := []
  /-- The worst capability so far. -/
  capability : Capability := .full

namespace Emission

/-- The emission with a value behind a new bind slot. -/
def addValue (e : Emission) (l : Literal) : Emission :=
  { e with values := e.values ++ [l] }

/-- The emission with a further use of a base. -/
def addAlias (e : Emission) (base : String) : Emission :=
  { e with aliases := e.aliases ++ [base] }

/-- The emission with a further warning. -/
def addWarning (e : Emission) (w : Warning) : Emission :=
  { e with
    warnings := e.warnings ++ [w]
    capability := e.capability.worse w.deviation.capability }

end Emission

/-- The state of a compilation. -/
structure Context where
  dialect : Dialect
  strict : Bool
  /-- Are all values written in place? -/
  inlineBinds : Bool
  checked : Bool
  schema : Option String
  dataColumn : String
  scope : Scope
  elements : List (String × String) := []
  stage : Option String := none
  /-- The number of open parts in which values are written in place. -/
  inlineDepth : Nat := 0
  /-- The named subqueries so far. -/
  ctes : List Cte := []
  emission : Emission := {}
  /-- The text so far. -/
  buffer : Fragment := []

/-- What rendering depends on in a context. -/
def Context.env (c : Context) : Env where
  dialect := c.dialect
  strict := c.strict
  inline := 0 < c.inlineDepth || c.inlineBinds
  checked := c.checked
  schema := c.schema
  dataColumn := c.dataColumn
  scope := c.scope
  elements := c.elements
  stage := c.stage

/-- Computations that read and change the context. What was changed before an error stays changed,
unless it is put back. -/
abbrev Command (α : Type) := EStateM Error Context α

namespace Command

variable {α : Type}

/-- Change what has been emitted. -/
def emit (f : Emission → Emission) : Command Unit :=
  modify fun c => { c with emission := f c.emission }

/-- Write text behind the text so far. -/
def write (text : Fragment) : Command Unit :=
  modify fun c => { c with buffer := c.buffer ++ text }

/-- Add a named subquery. -/
def hoist (cte : Cte) : Command Unit :=
  modify fun c => { c with ctes := c.ctes ++ [cte] }

/-- Run a command apart from the text so far, for the text that it writes. -/
def capture (m : Command Unit) : Command Fragment := do
  let saved := (← get).buffer
  modify fun c => { c with buffer := [] }
  tryFinally (do m; return (← get).buffer) (modify fun c => { c with buffer := saved })

/-- Run a command with every value written in place. -/
def inlined (m : Command α) : Command α := do
  modify fun c => { c with inlineDepth := c.inlineDepth + 1 }
  tryFinally m (modify fun c => { c with inlineDepth := c.inlineDepth - 1 })

/-- Run a command against another row. -/
def within (scope : Scope) (m : Command α) : Command α := do
  let saved := (← get).scope
  modify fun c => { c with scope }
  tryFinally m (modify fun c => { c with scope := saved })

/-- Run a command with an element variable bound to the rows of a source. -/
def withElement (name source : String) (m : Command α) : Command α := do
  modify fun c => { c with elements := (name, source) :: c.elements }
  tryFinally m (modify fun c => { c with elements := c.elements.tail })

/-- Run a command as part of a stage. -/
def inStage (stage : Option String) (m : Command α) : Command α := do
  let saved := (← get).stage
  modify fun c => { c with stage }
  tryFinally m (modify fun c => { c with stage := saved })

end Command

end PipelineSql
