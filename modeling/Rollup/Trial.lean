import Rollup.Clock
import Rollup.Distribution
import Rollup.Listing
import Rollup.Record.Average
import Rollup.Record.Latest
import Rollup.Record.Peak
import Rollup.Record.Percentile
import Rollup.Record.Rate
import Rollup.Record.Sum
import Rollup.Trial.Engines
import Rollup.Trial.Graphs
import Rollup.Trial.Pipelines
import Rollup.Trial.Queues
import Rollup.Trial.Requests
import Rollup.Trial.Rounds

/-!
# All trials

Everything that can be put together and called one by one.
-/
