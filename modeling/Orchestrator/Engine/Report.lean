import Orchestrator.Engine.GoLib

/-!
# `Orchestrator.Engine.Report`: the run summary (`engine/internal/report/report.go`)

The data model of a report and `criticalPath`, the longest chain of succeeded tasks by cumulative
duration.

`cost` is a memoised recursion over the dependencies. Its maps are one table that goes through the
calls (`CostTable`), and a node is marked as computed before its dependencies are looked at, so the
recursion ends on a graph with a cycle as well. Among the succeeded dependencies the first best is
kept. The comparison starts from `-1`, so that a dependency of 0 ms counts and a chain goes back as
far as it can.

`criticalPath` takes the sink with the highest cost, in the order of `range` over the spans, and
reads the chain back. Tasks that did not succeed cost nothing and are on no chain. Ties between
sinks are settled by that order, so the path may differ from run to run, and its length does not.

The fuel bounds the depth of the recursion by the number of the spans. The durations are `int64` in
the source; here they are integers, and the sums of a chain do not wrap around.
-/

set_option autoImplicit false

namespace Orchestrator.Engine

open Orchestrator.Lib

/-- The status of a span, and of a report. The source has texts; `Status.text` gives them back. -/
inductive Status
  | succeeded
  | failed
  | skipped
deriving DecidableEq

/-- `Decision`: what a skill noted during a run, with the data it attached. The data is a value
here, decoded from the text that the skill sent. -/
structure Decision where
  atMs : Int
  summary : String
  rationale : String
  data : Json

/-- `LLMUsage`: the tokens of one provider and model. A span has one of them, and each attempt that
reports usage is merged into it. -/
structure LLMUsage where
  provider : String
  model : String
  tokensIn : Int
  tokensOut : Int
deriving DecidableEq

/-- The trace of one task execution, over all of its attempts. A task that never started has one
too, with the status `skipped` and nothing else. -/
structure TaskSpan where
  id : String
  status : Status
  durationMs : Int := 0
  attempts : Int := 0
  llm : Option LLMUsage := none
  decisions : List Decision := []
  error : String := ""
  output : Json := .null

/-- `Totals`: the sums over the tasks of a run. They are counted while completions are received, and
what is received after a failure in the drain is not among them. -/
structure Totals where
  llmTokensIn : Int := 0
  llmTokensOut : Int := 0
  toolCalls : Int := 0
  retries : Int := 0
deriving DecidableEq

/-- `Report`: what a run returns. Its tasks are in the order of the workflow. -/
structure Report where
  workflow : String
  runID : String
  status : Status
  startedAt : String
  durationMs : Int
  tasks : List TaskSpan
  criticalPath : List String
  totals : Totals
  errors : List String
  output : Json

/-! ### Critical path -/

/-- The maps `cost` fills in: the cost of the best chain that ends at a task, its last step, and
which tasks have been looked at. They are shared by all calls, so each task is computed once. -/
structure CostTable where
  bestCost : String → Int := fun _ => 0
  bestPrev : String → String := fun _ => ""
  computed : String → Bool := fun _ => false

/-- The span of a node exists and succeeded. -/
def hasSucceeded (spans : Dict String TaskSpan) (id : String) : Bool :=
  (spans.get? id).any (fun s => s.status = .succeeded)

/-- `cost`: the cumulative duration of the longest chain that ends at `node`, memoised. The
fuel bounds the depth of the recursion. -/
def cost (spans : Dict String TaskSpan) (dependsOn : String → List String) :
    Nat → String → CostTable → Int × CostTable
  | 0, node, table => (table.bestCost node, table)
  | n + 1, node, table =>
    if table.computed node then (table.bestCost node, table)
    else
      let table := { table with computed := Function.update table.computed node true }
      let own := match spans.get? node with
        | some s => if s.status = .succeeded then s.durationMs else 0
        | none => 0
      -- `-1` records the first succeeded dependency even when it took 0 ms.
      let (prevBest, prevNode, table) := (dependsOn node).foldl
        (fun (acc : Int × String × CostTable) dep =>
          if hasSucceeded spans dep then
            let (c, table) := cost spans dependsOn n dep acc.2.2
            if c > acc.1 then (c, dep, table) else (acc.1, acc.2.1, table)
          else acc)
        (-1, "", table)
      let total := own + max prevBest 0
      (total,
        { table with
            bestCost := Function.update table.bestCost node total
            bestPrev := Function.update table.bestPrev node prevNode })

/-- The chain that ends at `node`, read back along `bestPrev`. The walk ends at a task without a
predecessor; on an acyclic graph the fuel lasts that long. -/
def chainFrom (bestPrev : String → String) : Nat → String → List String → List String
  | 0, _, chain => chain
  | n + 1, node, chain =>
    if node = "" then chain else chainFrom bestPrev n (bestPrev node) (node :: chain)

/-- `CriticalPath`. The order of `range` over the spans is `iter`.

Only succeeded tasks count. The path ends at a sink among them, since durations are not negative and
a longer chain costs at least as much. Ties go to the sink that is ranged over first. -/
def criticalPath (iter : MapOrder) (spans : Dict String TaskSpan)
    (dependsOn : String → List String) : List String :=
  let ranged := iter.range spans
  let fuel := spans.entries.length + 1
  -- The edges between succeeded tasks that lead away from a task, counted with repetition.
  let incoming : String → Nat := fun id =>
    ((ranged.filter (fun e => e.2.status = .succeeded)).flatMap
      (fun e => (dependsOn e.1).filter (hasSucceeded spans))).count id
  -- Among the sinks, the one with the highest cumulative cost.
  let (_, bestEnd, table) := ranged.foldl
    (fun (acc : Int × String × CostTable) e =>
      if e.2.status ≠ .succeeded ∨ incoming e.1 > 0 then acc
      else
        let (c, table) := cost spans dependsOn fuel e.1 acc.2.2
        if c > acc.1 then (c, e.1, table) else (acc.1, acc.2.1, table))
    (-1, "", {})
  -- Without a sink, any succeeded task.
  let bestEnd := if bestEnd = "" then
      ((ranged.find? (fun e => e.2.status = .succeeded)).map (·.1)).getD ""
    else bestEnd
  if bestEnd = "" then [] else chainFrom table.bestPrev fuel bestEnd []

end Orchestrator.Engine
