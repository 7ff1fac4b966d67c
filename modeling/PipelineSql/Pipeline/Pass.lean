import PipelineSql.Pipeline.Pushdown
import PipelineSql.Pipeline.Fusion

/-!
# Passes

The rearrangements of a pipeline that run before it is compiled, by themselves or in a chain.
-/

namespace PipelineSql

/-- A rearrangement of stages. -/
inductive Pass where
  | pushdown
  | fusion
  | chain (passes : List Pass)

namespace Pass

/-- The name in a report. -/
def name : Pass → String
  | .pushdown => "predicate_pushdown"
  | .fusion => "sort_limit_fusion"
  | .chain _ => "chain"

mutual

/-- The stages rearranged. -/
def run : Pass → List Stage → List Stage
  | .pushdown, stages => Pipeline.pushdown stages
  | .fusion, stages => Pipeline.fusion stages
  | .chain passes, stages => runAll passes stages

/-- The stages rearranged by passes one after another. -/
def runAll : List Pass → List Stage → List Stage
  | [], stages => stages
  | p :: ps, stages => runAll ps (run p stages)

end

/-- The pipeline with its stages rearranged. -/
def optimize (pass : Pass) (p : Pipeline) : Pipeline :=
  { p with stages := pass.run p.stages }

/-- Filters first, then sorts. -/
def standard : Pass :=
  .chain [.pushdown, .fusion]

end Pass

/-- The pipeline with its stages rearranged by the standard passes. -/
def Pipeline.optimize (p : Pipeline) : Pipeline :=
  { p with stages := Pass.standard.run p.stages }

end PipelineSql
